import SchemaPress.Text.CharClass

/-!
# Words and surrounding blanks

Texts are cut at blanks (`isBlank`): `trim` takes the blanks off both ends, `words` lists the runs
of other characters.
-/

namespace SchemaPress.Text

/-- `cs` without the blanks it starts with. -/
def dropBlanks (cs : List Char) : List Char :=
  cs.dropWhile isBlank

/-- `s` without the blanks at either end. -/
def trim (s : String) : String :=
  String.ofList (dropBlanks (dropBlanks s.toList).reverse).reverse

/-- Whether `s` holds nothing but blanks. -/
def isBlankText (s : String) : Bool :=
  s.toList.all isBlank

/-- Cuts a text into runs of characters other than blanks; `word` is the run being read, in reverse.
-/
def wordsFrom (word : List Char) : List Char → List (List Char)
  | [] => if word.isEmpty then [] else [word.reverse]
  | c :: rest =>
    if isBlank c then
      if word.isEmpty then wordsFrom [] rest else word.reverse :: wordsFrom [] rest
    else wordsFrom (c :: word) rest

/-- The runs of characters other than blanks. -/
def words (s : String) : List String :=
  (wordsFrom [] s.toList).map String.ofList

/-- `cs` cut at every occurrence of `sep`; there is always one piece more than there are cuts. -/
def splitOnChar (sep : Char) : List Char → List (List Char)
  | [] => [[]]
  | c :: rest =>
    if c == sep then [] :: splitOnChar sep rest
    else
      match splitOnChar sep rest with
      | [] => [[c]]
      | piece :: more => (c :: piece) :: more

/-- Whether `word` occurs in `cs`. -/
def hasInfix (word : List Char) : List Char → Bool
  | [] => word.isEmpty
  | c :: rest => word.isPrefixOf (c :: rest) || hasInfix word rest

end SchemaPress.Text
