import SchemaPress.Proofs.EcmaScript.TextLiteral
import SchemaPress.Proofs.Text.Lines
import SchemaPress.Proofs.TypeScript.Interface
import SchemaPress.Proofs.Yup.EscapeParity
import SchemaPress.Proofs.Yup.Validator

/-!
# Keys, and the lines that they stand on

The key of a property is its name if that is plain, and else a string literal.  Quotes and
backslashes are escaped in the literal but line ends are not, and a string literal cannot go on
behind a line end.  So a key denotes the name that it was made of, unless a line ends in the name
(`propertyName_cases`).

The members of an interface and the entries of a validator stand below each other, so each is on a
line of its own if no line ends in any of them.  A member can have a line end only from its name, as
descriptions become comments of one line.  An entry can also have one from an allowed value or from
the name of the library, but not from a pattern.
-/

namespace SchemaPress

open Text EcmaScript

/-! ### Keys -/

namespace TypeScript

variable {c : Char} {cs : List Char}

/-- A name of letters, digits, `_` and `$` that does not begin with a digit. -/
structure IsPlainName (cs : List Char) : Prop where
  ne_nil : cs ≠ []
  chars : ∀ (i : Nat) (h : i < cs.length), cs[i] = '_' ∨ cs[i] = '$' ∨
    isLetter cs[i] = true ∨ 0 < i ∧ isDigit cs[i] = true

theorem startsName_iff : startsName c = true ↔ c = '_' ∨ c = '$' ∨ isLetter c = true := by
  simp [startsName, or_assoc]

theorem isIdentifier_iff : isIdentifier cs = true ↔ IsPlainName cs := by
  cases cs with
  | nil => exact ⟨fun h => (by cases h), fun h => absurd rfl h.ne_nil⟩
  | cons c rest =>
    rw [isIdentifier, Bool.and_eq_true, startsName_iff, List.all_eq_true]
    constructor
    · rintro ⟨hfirst, hrest⟩
      refine ⟨List.cons_ne_nil c rest, fun i hi => ?_⟩
      cases i with
      | zero =>
        rcases hfirst with h | h | h
        exacts [.inl h, .inr (.inl h), .inr (.inr (.inl h))]
      | succ i =>
        have hmem : (c :: rest)[i + 1] ∈ rest :=
          List.getElem_mem (Nat.lt_of_succ_lt_succ hi)
        rcases Bool.or_eq_true_iff.1 (hrest _ hmem) with h | h
        · rcases startsName_iff.1 h with h | h | h
          exacts [.inl h, .inr (.inl h), .inr (.inr (.inl h))]
        · exact .inr (.inr (.inr ⟨Nat.succ_pos i, h⟩))
    · intro h
      constructor
      · rcases h.chars 0 (Nat.succ_pos _) with h | h | h | h
        exacts [.inl h, .inr (.inl h), .inr (.inr h), absurd h.1 (Nat.lt_irrefl 0)]
      · intro d hd
        obtain ⟨i, hi, rfl⟩ := List.getElem_of_mem hd
        rw [continuesName, Bool.or_eq_true_iff, startsName_iff]
        rcases h.chars (i + 1) (Nat.succ_lt_succ hi) with h | h | h | h
        exacts [.inl (.inl h), .inl (.inr (.inl h)), .inl (.inr (.inr h)), .inr h.2]

theorem mem_escapes_of_quoted (h : (c == '"' || c == '\\') = true) :
    c ∈ ['\\', '"', '`', '$'] ∧ isLineEnd c = false := by
  rw [Bool.or_eq_true, beq_iff_eq, beq_iff_eq] at h
  rcases h with rfl | rfl
  · exact ⟨by decide, by decide⟩
  · exact ⟨by decide, by decide⟩

/-- **`readChars` reads quoted characters up to the quote** if they are `OneLine`, and fails
otherwise. -/
theorem readChars_quotedChars (cs rest : List Char) :
    readChars .double .plain (cs.flatMap quotedChar ++ '"' :: rest) =
      if OneLine cs then some (codeUnits cs, rest) else none := by
  induction cs with
  | nil => exact readChars_close .double rest
  | cons c cs ih =>
    rw [List.flatMap_cons, List.append_assoc, quotedChar]
    by_cases hquoted : (c == '"' || c == '\\') = true
    · obtain ⟨hmem, hend⟩ := mem_escapes_of_quoted hquoted
      rw [if_pos hquoted, List.cons_append, List.cons_append, List.nil_append,
        readChars_escaped hmem, ih, codeUnits_cons c cs]
      simp only [oneLine_cons, hend, true_and]
      split_ifs <;> rfl
    · rw [if_neg hquoted, List.cons_append, List.nil_append]
      rw [Bool.or_eq_true, beq_iff_eq, beq_iff_eq, not_or] at hquoted
      have hclose : c ≠ Quote.double.char := hquoted.1
      rw [readChars_raw hquoted.2 hclose, rawUnits, ih, codeUnits_cons c cs]
      by_cases hend : c = '\n' ∨ c = '\r'
      · -- Here the literal breaks off.
        have hmany : ¬ OneLine (c :: cs) := by
          rw [oneLine_cons, isLineEnd_iff.2 hend]
          simp
        rw [if_pos hend, if_neg hmany]
        rfl
      · have hline : isLineEnd c = false := by
          rwa [← Bool.not_eq_true, isLineEnd_iff]
        rw [if_neg hend]
        simp only [oneLine_cons, hline, true_and, Option.bind_some]
        split_ifs <;> rfl

/-- **The value of `propertyName name`.**  It is `name` itself if that `IsPlainName`.  Otherwise it
is a literal, which `readLiteral` reads as `codeUnits name.toList` if `name` is `OneLine` and
refuses if not. -/
theorem propertyName_cases (name : String) :
    IsPlainName name.toList ∧ propertyName name = name ∨
      ¬ IsPlainName name.toList ∧ ∀ rest, readLiteral .double ((propertyName name).toList ++ rest) =
        if OneLine name.toList then some (codeUnits name.toList, rest) else none := by
  by_cases hname : isIdentifier name.toList = true
  · exact .inl ⟨isIdentifier_iff.1 hname, if_pos hname⟩
  · refine .inr ⟨mt isIdentifier_iff.2 hname, fun rest => ?_⟩
    have htext : (propertyName name).toList ++ rest =
        Quote.double.char :: (name.toList.flatMap quotedChar ++ '"' :: rest) := by
      rw [propertyName, if_neg hname, String.toList_ofList]
      simp [Quote.char]
    rw [htext, readLiteral_open]
    exact readChars_quotedChars name.toList rest

theorem oneLine_quotedChar (c : Char) : OneLine (quotedChar c) ↔ isLineEnd c = false := by
  have hback : isLineEnd '\\' = false := by decide
  unfold quotedChar
  split_ifs
  · simp [OneLine, hback]
  · simp [OneLine]

/-- `propertyName name` is `OneLine` if and only if `name` is. -/
theorem oneLine_propertyName (name : String) :
    OneLine (propertyName name).toList ↔ OneLine name.toList := by
  have hquote : isLineEnd '"' = false := by decide
  have hlast : OneLine ['"'] := by decide
  unfold propertyName
  split_ifs
  · rfl
  · rw [String.toList_ofList, List.cons_append, oneLine_cons, oneLine_append, oneLine_flatMap]
    simp only [oneLine_quotedChar, ← oneLine_iff, hquote, hlast, true_and, and_true]

/-! ### Members -/

theorem oneLine_guardEnd (cs : List Char) : OneLine (guardEnd cs) ↔ OneLine cs := by
  have hback : isLineEnd '\\' = false := by decide
  fun_induction guardEnd cs with
  | case1 rest ih => simp only [oneLine_cons, hback, ih, true_and]
  | case2 c rest _ ih => simp only [oneLine_cons, ih]
  | case3 => rfl

theorem oneLine_intercalate {sep : String} {parts : List String} (hsep : OneLine sep.toList)
    (h : ∀ s ∈ parts, OneLine s.toList) : OneLine (sep.intercalate parts).toList := by
  induction parts with
  | nil => exact rfl
  | cons s more ih =>
    have hs := h s List.mem_cons_self
    have hmore := ih fun t ht => h t (List.mem_cons_of_mem s ht)
    cases more with
    | nil => rwa [String.intercalate_singleton]
    | cons t more =>
      rw [String.intercalate_cons_cons, String.toList_append, String.toList_append, oneLine_append,
        oneLine_append]
      exact ⟨⟨hs, hsep⟩, hmore⟩

/-- Every `docComment` is `OneLine`. -/
theorem oneLine_docComment (description : String) : OneLine (docComment description).toList := by
  unfold docComment commentOf
  split
  case _ => exact rfl
  case _ words hwords =>
    have htext : OneLine (" ".intercalate (Text.words (Html.plainText description))).toList :=
      oneLine_intercalate (by decide) fun w hw => oneLine_of_mem_words hw
    rw [oneLine_between (by decide) (by decide), String.toList_ofList, oneLine_guardEnd]
    exact htext

theorem oneLine_member (p : Property) (required : Bool) :
    OneLine (member p required).toList ↔ OneLine p.name.toList := by
  have hmarker : OneLine (if required then "" else "?").toList := by
    cases required <;> decide
  have htype : OneLine (typeName p.type).toList := by
    cases p.type <;> decide
  have hcolon : OneLine ": ".toList := by decide
  simp only [member, String.toList_append, oneLine_append, oneLine_propertyName, hmarker, htype,
    hcolon, and_true]

/-- An interface up to the brace: its comment, if there is one, and its name. -/
def interfaceHeading (style : InterfaceStyle) (m : Model) : String :=
  let comment := if style.comments then docComment m.metadata.description else ""
  (if comment.isEmpty then "" else comment ++ "\n") ++ "interface " ++ m.name ++ r" {"

/-- The rows of a property: its comment, if there is one, and its member. -/
def memberRows (style : InterfaceStyle) (p : Property) : List (List Char) :=
  let comment := if style.comments then docComment p.constraints.description else ""
  (if comment.isEmpty then [] else ['\t' :: comment.toList]) ++
    ['\t' :: (member p (!style.optionalMarkers || p.required)).toList]

theorem oneLine_memberRows (style : InterfaceStyle) (p : Property) :
    (∀ row ∈ memberRows style p, OneLine row) ↔ OneLine p.name.toList := by
  have htab : isLineEnd '\t' = false := by decide
  have hcomment : OneLine
      (if style.comments then docComment p.constraints.description else "").toList := by
    split_ifs
    · exact oneLine_docComment _
    · exact rfl
  unfold memberRows
  dsimp only
  generalize (if style.comments then docComment p.constraints.description else "") = comment
    at hcomment ⊢
  split_ifs <;> simp [htab, hcomment, oneLine_member]

theorem toList_memberLines_eq_rows (style : InterfaceStyle) (p : Property) :
    (memberLines style p).toList = (memberRows style p).flatMap ('\n' :: ·) := by
  unfold memberLines memberRows
  dsimp only
  split_ifs <;> simp

/-- **The lines of an interface** are those of `interfaceHeading`, those of the `memberRows` of each
property, and a brace. -/
theorem lines_interface (style : InterfaceStyle) (m : Model) :
    lines (interface style m).toList =
      lines (interfaceHeading style m).toList ++
        ((m.properties.toList.flatMap (memberRows style)).flatMap lines ++ [['}']]) := by
  have hrows : (String.join (m.properties.toList.map (memberLines style))).toList =
      (m.properties.toList.flatMap (memberRows style)).flatMap ('\n' :: ·) := by
    rw [String.toList_join, List.flatMap_map, List.flatMap_assoc]
    simp only [toList_memberLines_eq_rows]
  have htext : interface style m = interfaceHeading style m ++
      (String.join (m.properties.toList.map (memberLines style)) ++ "\n\x7d") := by
    unfold interface interfaceHeading
    exact String.append_assoc
  have hend : "\n\x7d".toList = ['\n', '}'] := by decide
  have hbrace : lines ['}'] = [['}']] := by decide
  have hcut : isLineEnd '\n' = true := by decide
  rw [htext, String.toList_append, String.toList_append, hrows, hend, newline_flatMap,
    lines_append_cons hcut, lines_rows, hbrace]

end TypeScript

/-! ### Entries -/

namespace Yup

open TypeScript

/-- The values of `oneOf`; other rules have none. -/
def Rule.values : Rule → List String
  | .oneOf values => values
  | _ => []

/-- The texts of `enum` if the type of `p` is `string`, and none otherwise. -/
def writtenValues (p : Property) : List String :=
  if p.type = .string then p.constraints.textEnum else []

theorem oneLine_templateChars (cs : List Char) : OneLine (templateChars cs) ↔ OneLine cs := by
  have hback : isLineEnd '\\' = false := by decide
  fun_induction templateChars cs with
  | case1 => rfl
  | case2 rest ih => simp only [oneLine_cons, hback, ih, true_and]
  | case3 rest ih => simp only [oneLine_cons, hback, ih, true_and]
  | case4 rest ih => simp only [oneLine_cons, hback, ih, true_and]
  | case5 c rest _ _ _ ih => simp only [oneLine_cons, ih]

theorem oneLine_templateLiteral (v : String) :
    OneLine (templateLiteral v).toList ↔ OneLine v.toList := by
  have htick : isLineEnd '`' = false := by decide
  have hlast : OneLine ['`'] := by decide
  rw [templateLiteral, String.toList_ofList, List.cons_append, oneLine_cons, oneLine_append]
  simp only [htick, hlast, oneLine_templateChars, true_and, and_true]

theorem oneLine_values (values : List String) :
    OneLine (", ".intercalate (values.map templateLiteral)).toList ↔
      ∀ v ∈ values, OneLine v.toList := by
  cases values with
  | nil => simp [OneLine]
  | cons v vs =>
    have hcomma : isLineEnd ',' = false := by decide
    have hspace : isLineEnd ' ' = false := by decide
    rw [toList_values_cons, oneLine_append, furtherValues, oneLine_flatMap, List.forall_mem_cons]
    simp only [oneLine_cons, hcomma, hspace, oneLine_templateLiteral, true_and]

/-- Every `regexLiteral` is `OneLine`. -/
theorem oneLine_regexLiteral (pattern : String) : OneLine (regexLiteral pattern).toList := by
  have hterminator := (isEscaped_regexLiteral pattern).no_lineTerminator
  have hall : ∀ c ∈ (regexLiteral pattern).toList, (fun d => !isLineTerminator d) c = true :=
    fun c hc => by simp [hterminator c hc]
  exact oneLine_of_forall (by decide) (by decide) hall

theorem oneLine_of_isNumeric {cs : List Char} (h : ∀ c ∈ cs, Decimal.isNumeric c = true) :
    OneLine cs :=
  oneLine_of_forall (by decide) (by decide) h

/-- The `fragment` of a rule is `OneLine` if and only if its values are. -/
theorem oneLine_fragment (rule : Rule) :
    OneLine (fragment rule).toList ↔ ∀ v ∈ rule.values, OneLine v.toList := by
  have hpositional (x : Decimal.Binary64) : OneLine x.positional.toList :=
    oneLine_of_isNumeric fun c hc => Decimal.isNumeric_of_mem_positional hc
  have hint (n : Int) : OneLine (Decimal.intText n).toList :=
    oneLine_of_isNumeric fun c hc => Decimal.isNumeric_of_mem_intText hc
  have hnone : ∀ v ∈ ([] : List String), OneLine v.toList := fun v hv => absurd hv List.not_mem_nil
  -- Every call is a fixed text around its argument.
  cases rule with
  | minimum bound =>
    exact iff_of_true ((oneLine_between (by decide) (by decide) _).2 (hpositional bound)) hnone
  | maximum bound =>
    exact iff_of_true ((oneLine_between (by decide) (by decide) _).2 (hpositional bound)) hnone
  | minLength length =>
    exact iff_of_true ((oneLine_between (by decide) (by decide) _).2 (hint length)) hnone
  | maxLength length =>
    exact iff_of_true ((oneLine_between (by decide) (by decide) _).2 (hint length)) hnone
  | pattern pattern =>
    have hpattern := oneLine_regexLiteral pattern
    exact iff_of_true ((oneLine_between (by decide) (by decide) _).2 hpattern) hnone
  | oneOf values =>
    rw [fragment, oneLine_between (by decide) (by decide), oneLine_values]
    rfl
  | email => exact iff_of_true (by decide) hnone
  | uuid => exact iff_of_true (by decide) hnone

/-- The values of the rules of `p` are `writtenValues p`. -/
theorem flatMap_values_derive (p : Property) :
    (derive p).rules.flatMap Rule.values = writtenValues p := by
  have hbound {α : Type} (f : α → Rule) (hf : ∀ x, (f x).values = []) (bound : Option α) :
      (bound.map f).toList.flatMap Rule.values = [] := by
    cases bound <;> simp [hf]
  have hminimum := hbound Rule.minimum (fun _ => rfl)
  have hmaximum := hbound Rule.maximum (fun _ => rfl)
  have hminLength := hbound Rule.minLength (fun _ => rfl)
  have hmaxLength := hbound Rule.maxLength (fun _ => rfl)
  unfold derive writtenValues
  cases p.type with
  | number => simp [hminimum, hmaximum]
  | string =>
    have hpattern (pattern : String) :
        (if pattern.isEmpty then [] else [Rule.pattern pattern]).flatMap Rule.values = [] := by
      split_ifs <;> rfl
    have hvalues (values : List String) :
        (if values.isEmpty then [] else [Rule.oneOf values]).flatMap Rule.values = values := by
      cases values <;> simp [Rule.values]
    simp only [List.flatMap_append, hminLength, hmaxLength, hpattern, hvalues, List.nil_append,
      if_true]
  | boolean => rfl
  | unsupported => rfl

theorem oneLine_chain (style : ValidatorStyle) (p : Property) :
    OneLine (chain (entryRules style p)).toList ↔ ∀ v ∈ writtenValues p, OneLine v.toList := by
  have htag : OneLine (entryRules style p).tag.name.toList := by
    rcases isStandard_entryRules style p with h | h | h <;> rw [h] <;> decide
  have hdot : OneLine ".".toList := by decide
  have hcall : OneLine "()".toList := by decide
  have hclosing : OneLine
      (if (entryRules style p).optional then ".notRequired()" else ".required()").toList := by
    cases (entryRules style p).optional <;> decide
  have hrules : (entryRules style p).rules = (derive p).rules := rfl
  simp only [chain, String.toList_append, oneLine_append, hdot, htag, hcall, hclosing, true_and,
    and_true, String.toList_join, List.flatMap_map, oneLine_flatMap, oneLine_fragment, hrules]
  rw [← flatMap_values_derive]
  simp only [List.mem_flatMap]
  exact ⟨fun h v ⟨rule, hrule, hv⟩ => h rule hrule v hv,
    fun h rule hrule v hv => h v ⟨rule, hrule, hv⟩⟩

/-- `entry style p` without its line end. -/
def entryRow (style : ValidatorStyle) (p : Property) : List Char :=
  (entry style p).toList.dropLast

theorem entryRow_eq (style : ValidatorStyle) (p : Property) :
    entryRow style p = (propertyName p.name).toList ++ ((": " ++ style.library).toList ++
      ((chain (entryRules style p)).toList ++ [','])) := by
  have hlast : ",\n".toList = [','] ++ ['\n'] := by decide
  rw [entryRow, toList_entry, hlast]
  simp only [← List.append_assoc, List.dropLast_concat]

theorem toList_entry_eq_row (style : ValidatorStyle) (p : Property) :
    (entry style p).toList = entryRow style p ++ ['\n'] := by
  rw [entryRow_eq, toList_entry]
  simp

/-- `entryRow style p` is `OneLine` if and only if the name, the library and the `writtenValues`
are. -/
theorem oneLine_entryRow (style : ValidatorStyle) (p : Property) :
    OneLine (entryRow style p) ↔ OneLine p.name.toList ∧ OneLine style.library.toList ∧
      ∀ v ∈ writtenValues p, OneLine v.toList := by
  have hcolon : OneLine ": ".toList := by decide
  have hcomma : OneLine [','] := by decide
  simp only [entryRow_eq, String.toList_append, oneLine_append, oneLine_propertyName, oneLine_chain,
    hcolon, hcomma, true_and, and_true]

/-- A validator up to the first entry. -/
def validatorHeading (style : ValidatorStyle) (m : Model) : String :=
  "export const " ++ m.name ++ "Validator = " ++ style.library ++ r".object().shape({"

theorem validator_eq (style : ValidatorStyle) (m : Model) :
    validator style m = validatorHeading style m ++
      ("\n" ++ (String.join (m.properties.toList.map (entry style)) ++ "\x7d);\n")) := by
  have hopen : ".object().shape(\x7b\n" = r".object().shape({" ++ "\n" := by decide
  unfold validator validatorHeading
  rw [hopen]
  simp only [String.append_assoc]

/-- **The lines of a validator** are those of `validatorHeading`, those of the `entryRow` of each
property, the closing line and an empty one. -/
theorem lines_validator (style : ValidatorStyle) (m : Model) :
    lines (validator style m).toList =
      lines (validatorHeading style m).toList ++
        ((m.properties.toList.map (entryRow style)).flatMap lines ++ [r"});".toList, []]) := by
  have hrows : (String.join (m.properties.toList.map (entry style))).toList =
      (m.properties.toList.map (entryRow style)).flatMap (· ++ ['\n']) := by
    rw [String.toList_join, List.flatMap_map, List.flatMap_map]
    simp only [toList_entry_eq_row]
  have hnewline : "\n".toList = ['\n'] := by decide
  have hcut : isLineEnd '\n' = true := by decide
  have hend : lines "\x7d);\n".toList = [r"});".toList, []] := by decide
  rw [validator_eq, String.toList_append, String.toList_append, String.toList_append, hrows,
    hnewline, List.singleton_append, lines_append_cons hcut, lines_rows, hend]

end Yup

/-! ### Own lines -/

open TypeScript Yup

/-- **Keys on lines of their own.**  `propertyName name` is the plain `name`, or a literal of
`name`, which is complete if and only if `name` is `OneLine`.  The rows of an interface are lines if
and only if the names of all properties are `OneLine`, and the entries of a validator if and only if
the library and all `writtenValues` are so too. -/
theorem keys_on_own_lines (name : String) (m : Model) (style : InterfaceStyle)
    (style' : ValidatorStyle) :
    (IsPlainName name.toList ∧ propertyName name = name ∨
      ¬ IsPlainName name.toList ∧ ∀ rest, readLiteral .double ((propertyName name).toList ++ rest) =
        if OneLine name.toList then some (codeUnits name.toList, rest) else none) ∧
    (lines (interface style m).toList =
        lines (interfaceHeading style m).toList ++
          (m.properties.toList.flatMap (memberRows style) ++ [['}']]) ↔
      ∀ p ∈ m.properties.toList, OneLine p.name.toList) ∧
    (lines (validator style' m).toList =
        lines (validatorHeading style' m).toList ++
          (m.properties.toList.map (entryRow style') ++ [r"});".toList, []]) ↔
      ∀ p ∈ m.properties.toList, OneLine p.name.toList ∧ OneLine style'.library.toList ∧
        ∀ v ∈ writtenValues p, OneLine v.toList) := by
  refine ⟨propertyName_cases name, ?_, ?_⟩
  · rw [lines_interface, List.append_cancel_left_eq, List.append_cancel_right_eq,
      flatMap_lines_eq_self_iff]
    simp only [← oneLine_memberRows style, List.mem_flatMap]
    exact ⟨fun h p hp row hrow => h row ⟨p, hp, hrow⟩, fun h row ⟨p, hp, hrow⟩ => h p hp row hrow⟩
  · rw [lines_validator, List.append_cancel_left_eq, List.append_cancel_right_eq,
      flatMap_lines_eq_self_iff, List.forall_mem_map]
    simp only [oneLine_entryRow]

/-- The key of `"a\nb"` has two lines and is not a literal. -/
theorem key_over_two_lines :
    readLiteral .double (propertyName "a\nb").toList = none ∧
      lines (propertyName "a\nb").toList = ["\"a".toList, "b\"".toList] := by
  decide +kernel

end SchemaPress
