import SchemaPress.Proofs.Decimal.Notation
import SchemaPress.Proofs.Text.Scan
import SchemaPress.Yup.Chain

/-!
# Reading chains

`readCalls` reads a chain of calls from the front of a text.  A call ends at the first closing
parenthesis outside of literals, and the chain ends with the call that says whether a value is
required.  Neither way of escaping lets a literal end too early (`passes_regexLiteral`,
`passes_templateChars`), so reading gives back the calls that were written, whatever comes behind
them (`readCalls_chain`), and a chain can be read in one way only (`chain_decodable`).
-/

namespace SchemaPress.Yup

open Scan

/-! ### The reader -/

/-- The last call of a chain. -/
def closing (optional : Bool) : String :=
  if optional then ".notRequired()" else ".required()"

/-- Reads calls up to a `closing`: the calls before it, whether it is the optional one, and the text
after it; `back` is the current call so far, in reverse. -/
def readCalls (region : Region) (back : List Char) :
    List Char → Option (List String × Bool × List Char)
  | [] => none
  | c :: rest =>
    if region = .outside ∧ c = ')' then
      let call := String.ofList (c :: back).reverse
      if call = closing false then some ([], false, rest)
      else if call = closing true then some ([], true, rest)
      else
        (readCalls .outside [] rest).map fun (calls, optional, rest) =>
          (call :: calls, optional, rest)
    else readCalls (region.step c) (c :: back) rest

variable {region region' : Region} {cs rest back : List Char} {c : Char}

theorem readCalls_of_passes (h : Passes [')'] region cs region') :
    readCalls region back (cs ++ rest) = readCalls region' (cs.reverse ++ back) rest := by
  induction h generalizing back with
  | nil => rfl
  | cons goes _ ih =>
    rw [List.mem_singleton] at goes
    rw [List.cons_append, readCalls, if_neg goes, ih, List.reverse_cons, List.append_assoc]
    rfl

/-! ### Regular expression literals -/

/-- The region of a regular expression, after a backslash if `escaped`. -/
def inRegex (escaped : Bool) : Region :=
  if escaped then .escaped '/' else .inside '/'

/-- The letters of a line break pass. -/
theorem passes_lineBreak {letters : List Char} (h : lineBreakLetters? c = some letters)
    (escaped : Bool) :
    Passes [')'] (inRegex escaped) (if escaped then letters else '\\' :: letters)
      (.inside '/') := by
  have hletters : ∃ first more, letters = first :: more ∧
      more.all (fun d => d != '\\' && d != '/') = true := by
    unfold lineBreakLetters? at h
    split_ifs at h <;> cases h <;> exact ⟨_, _, rfl, by decide⟩
  obtain ⟨first, more, rfl, hmore⟩ := hletters
  have hrest : Passes [')'] (.inside '/') more (.inside '/') := passes_inside_of_all hmore
  cases escaped with
  | false => exact passes_escape hrest
  | true => exact .cons (by simp [inRegex]) hrest

theorem ne_backslash_of_lineBreak {letters : List Char} (h : lineBreakLetters? c = some letters) :
    c ≠ '\\' := by
  rintro rfl
  simp [lineBreakLetters?] at h

/-- `regexChar` of a character passes, and leads to `escaped` if the character is a backslash that
is not escaped itself. -/
theorem passes_regexChar (escaped : Bool) (c : Char) :
    Passes [')'] (inRegex escaped) (regexChar escaped c) (inRegex (!escaped && c == '\\')) := by
  unfold regexChar
  split
  case _ letters h =>
    -- A line break is no backslash, so nothing is escaped behind it.
    rw [beq_false_of_ne (ne_backslash_of_lineBreak h), Bool.and_false]
    exact passes_lineBreak h escaped
  case _ =>
    cases escaped with
    | true =>
      rw [Bool.not_true, Bool.and_false]
      exact .cons (by simp [inRegex]) (.nil _)
    | false =>
      rw [Bool.not_false, Bool.and_true, Bool.true_and]
      by_cases hslash : c = '/'
      · subst hslash
        exact passes_escape (.nil _)
      by_cases hback : c = '\\'
      · subst hback
        exact .cons (by simp [inRegex]) (.nil _)
      rw [beq_false_of_ne hslash, beq_false_of_ne hback]
      exact passes_inside hback hslash (.nil _)

theorem passes_regexChars (escaped : Bool) (cs : List Char) :
    Passes [')'] (inRegex escaped) (regexChars escaped cs) (.inside '/') := by
  induction cs generalizing escaped with
  | nil =>
    cases escaped with
    | false => exact .nil _
    | true => exact .cons (by simp [inRegex]) (.nil _)
  | cons c rest ih => exact (passes_regexChar escaped c).append (ih _)

/-- `regexLiteral` never closes its literal. -/
theorem passes_regexLiteral (pattern : String) :
    Passes [')'] (.inside '/') (regexLiteral pattern).toList (.inside '/') := by
  unfold regexLiteral
  split_ifs
  · exact passes_inside_of_all (by decide)
  · rw [String.toList_ofList]
    exact passes_regexChars false pattern.toList

/-! ### Template literals -/

/-- `templateChars` never close their literal. -/
theorem passes_templateChars (cs : List Char) :
    Passes [')'] (.inside '`') (templateChars cs) (.inside '`') := by
  fun_induction templateChars cs with
  | case1 => exact .nil _
  | case2 rest ih => exact passes_escape ih
  | case3 rest ih => exact passes_escape ih
  | case4 rest ih => exact passes_escape (passes_inside (by decide) (by decide) ih)
  | case5 c rest hback htick _ ih => exact passes_inside hback htick ih

theorem passes_templateLiteral (s : String) :
    Passes [')'] .outside (templateLiteral s).toList .outside := by
  unfold templateLiteral
  rw [String.toList_ofList]
  exact passes_literal (by decide) (by decide) (passes_templateChars s.toList)

/-- The text up to the closing backtick, without its escapes, and the text after it. -/
def readTemplate : List Char → Option (List Char × List Char)
  | [] => none
  | '`' :: rest => some ([], rest)
  | '\\' :: c :: rest => (readTemplate rest).map fun (cs, rest) => (c :: cs, rest)
  | c :: rest => (readTemplate rest).map fun (cs, rest) => (c :: cs, rest)

theorem readTemplate_templateChars (cs rest : List Char) :
    readTemplate (templateChars cs ++ '`' :: rest) = some (cs, rest) := by
  fun_induction templateChars cs with
  | case1 => rfl
  | case2 cs ih => simp [readTemplate, ih]
  | case3 cs ih => simp [readTemplate, ih]
  | case4 cs ih => simp [readTemplate, ih]
  | case5 c cs hback htick _ ih =>
    -- The character is no backslash, so it does not escape what follows.
    have hnot : ∀ d more, c = '\\' → templateChars cs ++ '`' :: rest ≠ d :: more :=
      fun _ _ h => (hback h).elim
    rw [List.cons_append, readTemplate.eq_4 _ _ htick hnot, ih]
    rfl

/-- `templateLiteral` is injective, and no literal is a proper prefix of another. -/
theorem templateLiteral_append_inj {v w : String} {xs ys : List Char}
    (h : (templateLiteral v).toList ++ xs = (templateLiteral w).toList ++ ys) :
    v = w ∧ xs = ys := by
  have hread : some (v.toList, xs) = some (w.toList, ys) := by
    rw [← readTemplate_templateChars, ← readTemplate_templateChars]
    unfold templateLiteral at h
    simp only [String.toList_ofList, List.cons_append, List.append_assoc, List.nil_append,
      List.cons.injEq, true_and] at h
    rw [h]
  rw [Option.some_inj, Prod.mk.injEq, String.toList_inj] at hread
  exact hread

/-! ### Allowed values -/

/-- The template literals after the first one. -/
def furtherValues (vs : List String) : List Char :=
  vs.flatMap fun v => ',' :: ' ' :: (templateLiteral v).toList

theorem toList_values_cons (v : String) (vs : List String) :
    (", ".intercalate ((v :: vs).map templateLiteral)).toList =
      (templateLiteral v).toList ++ furtherValues vs := by
  induction vs generalizing v with
  | nil => simp [furtherValues]
  | cons w more ih =>
    rw [List.map_cons, List.map_cons, String.intercalate_cons_cons, ← List.map_cons,
      String.toList_append, String.toList_append, ih, List.append_assoc]
    rfl

theorem passes_furtherValues (vs : List String) :
    Passes [')'] .outside (furtherValues vs) .outside := by
  induction vs with
  | nil => exact .nil _
  | cons v rest ih =>
    rw [furtherValues, List.flatMap_cons]
    exact Passes.append
      (.cons (by decide) (.cons (by decide) (passes_templateLiteral v))) ih

theorem passes_values (values : List String) :
    Passes [')'] .outside (", ".intercalate (values.map templateLiteral)).toList .outside := by
  cases values with
  | nil => exact .nil _
  | cons v rest =>
    rw [toList_values_cons]
    exact (passes_templateLiteral v).append (passes_furtherValues rest)

theorem furtherValues_inj {vs ws : List String} {xs ys : List Char}
    (h : furtherValues vs ++ ']' :: xs = furtherValues ws ++ ']' :: ys) : vs = ws := by
  -- A comma goes on and a bracket ends, so both lists end at the same time.
  induction vs generalizing ws with
  | nil =>
    cases ws with
    | nil => rfl
    | cons w ws => simp [furtherValues] at h
  | cons v vs ih =>
    cases ws with
    | nil => simp [furtherValues] at h
    | cons w ws =>
      simp only [furtherValues, List.flatMap_cons, List.cons_append, List.append_assoc,
        List.cons.injEq, true_and] at h
      obtain ⟨rfl, htail⟩ := templateLiteral_append_inj h
      rw [ih htail]

/-! ### Single calls -/

/-- `call` ends with its only closing parenthesis that is `outside`. -/
def IsCall (call : String) : Prop :=
  ∃ body, call.toList = body ++ [')'] ∧ Passes [')'] .outside body .outside

theorem isCall_append {body : String} (h : Passes [')'] .outside body.toList .outside) :
    IsCall (body ++ ")") :=
  ⟨body.toList, String.toList_append, h⟩

theorem passes_numeric (h : ∀ c ∈ cs, Decimal.isNumeric c = true) :
    Passes [')'] .outside cs .outside := by
  have hall : (')' :: quotes).all (fun d => !Decimal.isNumeric d) = true := by decide
  refine passes_outside (List.all_eq_true.2 fun c hc => ?_)
  have hnot : c ∉ ')' :: quotes := by
    intro hmem
    have := List.all_eq_true.1 hall c hmem
    rw [h c hc] at this
    cases this
  rw [List.mem_cons, not_or] at hnot
  simp [hnot]

theorem isCall_bound {method number : String}
    (hmethod : method.toList.all (fun c => !([')'].contains c) && !quotes.contains c) = true)
    (hnumber : ∀ c ∈ number.toList, Decimal.isNumeric c = true) :
    IsCall (method ++ number ++ ")") := by
  refine isCall_append ?_
  rw [String.toList_append]
  exact (passes_outside hmethod).append (passes_numeric hnumber)

/-- The fragment of every rule `IsCall`. -/
theorem isCall_fragment (r : Rule) : IsCall (fragment r) := by
  cases r with
  | minimum bound => exact isCall_bound (by decide) fun _ => Decimal.isNumeric_of_mem_positional
  | maximum bound => exact isCall_bound (by decide) fun _ => Decimal.isNumeric_of_mem_positional
  | minLength length => exact isCall_bound (by decide) fun _ => Decimal.isNumeric_of_mem_intText
  | maxLength length => exact isCall_bound (by decide) fun _ => Decimal.isNumeric_of_mem_intText
  | pattern pattern =>
    refine ⟨".matches(".toList ++ '/' :: ((regexLiteral pattern).toList ++ ['/']), ?_, ?_⟩
    · simp [fragment]
    exact (passes_outside (by decide)).append
      (passes_literal (by decide) (by decide) (passes_regexLiteral pattern))
  | oneOf values =>
    refine ⟨".oneOf([".toList ++ (", ".intercalate (values.map templateLiteral)).toList ++ [']'],
      ?_, ?_⟩
    · simp [fragment]
    exact ((passes_outside (by decide)).append (passes_values values)).append
      (passes_outside (by decide))
  | email => exact ⟨".email(".toList, by decide, passes_outside (by decide)⟩
  | uuid => exact ⟨".uuid(".toList, by decide, passes_outside (by decide)⟩

/-- No fragment is a `closing`, since they differ after the dot. -/
theorem fragment_ne_closing (r : Rule) (optional : Bool) : fragment r ≠ closing optional := by
  have hfragment : (fragment r).toList[1]? ∉ [some 'r', some 'n'] := by
    cases r <;> simp [fragment]
  have hclosing : (closing optional).toList[1]? ∈ [some 'r', some 'n'] := by
    cases optional <;> decide
  intro h
  exact hfragment (h ▸ hclosing)

theorem readCalls_closing (optional : Bool) (rest : List Char) :
    readCalls .outside [] ((closing optional).toList ++ rest) = some ([], optional, rest) := by
  cases optional <;> rfl

theorem IsCall.readCalls_append {call : String} (h : IsCall call)
    (hends : ∀ optional, call ≠ closing optional) :
    readCalls .outside [] (call.toList ++ rest) =
      (readCalls .outside [] rest).map fun (calls, optional, rest) =>
        (call :: calls, optional, rest) := by
  obtain ⟨body, hbody, hpasses⟩ := h
  have hcall : String.ofList (')' :: (body.reverse ++ [])).reverse = call := by
    rw [List.append_nil, List.reverse_cons, List.reverse_reverse, ← hbody, String.ofList_toList]
  rw [hbody, List.append_assoc, readCalls_of_passes hpasses, List.singleton_append, readCalls,
    if_pos ⟨rfl, rfl⟩]
  dsimp only
  rw [hcall, if_neg (hends false), if_neg (hends true)]

/-! ### Chains -/

/-- The first call of a chain. -/
def ChainTag.call (tag : ChainTag) : String :=
  "." ++ tag.name ++ "()"

/-- The tags that `derive` gives. -/
def ChainTag.IsStandard (tag : ChainTag) : Prop :=
  tag = .number ∨ tag = .string ∨ tag = .mixed

theorem ChainTag.IsStandard.isCall {tag : ChainTag} (h : tag.IsStandard) : IsCall tag.call := by
  obtain rfl | rfl | rfl := h
  · exact ⟨".number(".toList, by decide, passes_outside (by decide)⟩
  · exact ⟨".string(".toList, by decide, passes_outside (by decide)⟩
  · exact ⟨".mixed(".toList, by decide, passes_outside (by decide)⟩

theorem ChainTag.IsStandard.ne_closing {tag : ChainTag} (h : tag.IsStandard) (optional : Bool) :
    tag.call ≠ closing optional := by
  obtain rfl | rfl | rfl := h <;> cases optional <;> decide

theorem ChainTag.IsStandard.eq_of_call_eq {tag tag' : ChainTag} (h : tag.IsStandard)
    (h' : tag'.IsStandard) (hcall : tag.call = tag'.call) : tag = tag' := by
  obtain rfl | rfl | rfl := h <;> obtain rfl | rfl | rfl := h' <;>
    first | rfl | exact absurd hcall (by decide)

theorem readCalls_fragments (rules : List Rule) (optional : Bool) (rest : List Char) :
    readCalls .outside []
        ((String.join (rules.map fragment)).toList ++ ((closing optional).toList ++ rest)) =
      some (rules.map fragment, optional, rest) := by
  induction rules with
  | nil => exact readCalls_closing optional rest
  | cons r more ih =>
    rw [List.map_cons, String.join_cons, String.toList_append, List.append_assoc,
      (isCall_fragment r).readCalls_append (fragment_ne_closing r), ih]
    rfl

/-- **`readCalls` reads back `chain r`**, before any rest: the call of the tag, the fragments of the
rules, and whether it is optional. -/
theorem readCalls_chain {r : PropertyRules} (h : r.tag.IsStandard) (rest : List Char) :
    readCalls .outside [] ((chain r).toList ++ rest) =
      some (r.tag.call :: r.rules.map fragment, r.optional, rest) := by
  have hchain : (chain r).toList ++ rest =
      r.tag.call.toList ++ ((String.join (r.rules.map fragment)).toList ++
        ((closing r.optional).toList ++ rest)) := by
    simp only [chain, ChainTag.call, closing, String.toList_append, List.append_assoc]
  rw [hchain, h.isCall.readCalls_append h.ne_closing, readCalls_fragments]
  rfl

/-! ### Fragments with a text of their own -/

/-- The fragment of `oneOf` determines the values. -/
theorem fragment_oneOf_injective {vs ws : List String}
    (h : fragment (.oneOf vs) = fragment (.oneOf ws)) : vs = ws := by
  have hvalues : (", ".intercalate (vs.map templateLiteral)).toList ++ [']', ')'] =
      (", ".intercalate (ws.map templateLiteral)).toList ++ [']', ')'] := by
    simpa [fragment] using congrArg String.toList h
  cases vs with
  | nil =>
    cases ws with
    | nil => rfl
    | cons w ws =>
      rw [toList_values_cons] at hvalues
      simp [templateLiteral] at hvalues
  | cons v vs =>
    cases ws with
    | nil =>
      rw [toList_values_cons] at hvalues
      simp [templateLiteral] at hvalues
    | cons w ws =>
      rw [toList_values_cons, toList_values_cons, List.append_assoc, List.append_assoc] at hvalues
      obtain ⟨rfl, hfurther⟩ := templateLiteral_append_inj hvalues
      rw [furtherValues_inj hfurther]

/-- The fragment of `pattern` determines the `regexLiteral`. -/
theorem regexLiteral_eq_of_fragment_eq {p q : String}
    (h : fragment (.pattern p) = fragment (.pattern q)) : regexLiteral p = regexLiteral q := by
  simpa [fragment] using h

/-! ### Decoding -/

/-- The chains have the same tag, the same fragments in order, and the same `closing`. -/
structure SameCalls (r s : PropertyRules) : Prop where
  tag : r.tag = s.tag
  optional : r.optional = s.optional
  length : r.rules.length = s.rules.length
  fragments : ∀ i (hr : i < r.rules.length) (hs : i < s.rules.length),
    fragment r.rules[i] = fragment s.rules[i]

theorem SameCalls.map_fragment {r s : PropertyRules} (h : SameCalls r s) :
    r.rules.map fragment = s.rules.map fragment := by
  refine List.ext_getElem (by simpa using h.length) fun i hr hs => ?_
  rw [List.getElem_map, List.getElem_map]
  exact h.fragments i _ _

theorem SameCalls.chain_eq {r s : PropertyRules} (h : SameCalls r s) : chain r = chain s := by
  rw [chain, chain, h.tag, h.optional, h.map_fragment]

theorem sameCalls_of_chain_eq {r s : PropertyRules} (hr : r.tag.IsStandard) (hs : s.tag.IsStandard)
    (h : chain r = chain s) : SameCalls r s := by
  -- Both chains are what is read from the same text.
  have hread := (readCalls_chain hr []).symm.trans (h ▸ readCalls_chain hs [])
  simp only [Option.some_inj, Prod.mk.injEq, List.cons.injEq, and_true] at hread
  obtain ⟨⟨htag, hrules⟩, hoptional⟩ := hread
  refine ⟨hr.eq_of_call_eq hs htag, hoptional, by simpa using congrArg List.length hrules, ?_⟩
  intro i hi hi'
  have hat := List.getElem_of_eq hrules (i := i) (by simpa using hi)
  rwa [List.getElem_map, List.getElem_map] at hat

/-- **Chains are uniquely decodable.**  Two chains are equal if and only if they have `SameCalls`,
the fragment of `oneOf` determines the values, and that of `pattern` the `regexLiteral`. -/
theorem chain_decodable :
    (∀ r s : PropertyRules, r.tag.IsStandard → s.tag.IsStandard →
      (chain r = chain s ↔ SameCalls r s)) ∧
    (∀ vs ws : List String, fragment (.oneOf vs) = fragment (.oneOf ws) → vs = ws) ∧
    (∀ p q : String, fragment (.pattern p) = fragment (.pattern q) →
      regexLiteral p = regexLiteral q) := by
  refine ⟨fun r s hr hs => ?_, fun vs ws => fragment_oneOf_injective,
    fun p q => regexLiteral_eq_of_fragment_eq⟩
  exact ⟨sameCalls_of_chain_eq hr hs, SameCalls.chain_eq⟩

/-- Rules of a text whose pattern and values look like calls. -/
def lengthRules : PropertyRules where
  tag := .string
  rules := [.minLength 5, .pattern "/).required()", .oneOf ["`]).required()", r"${"]]
  optional := true

/-- Other rules with the same fragments as `lengthRules`. -/
def boundRules : PropertyRules where
  tag := .string
  rules := [.minimum (.ofInt 5), .pattern "\\/).required()",
    .oneOf ["`]).required()", r"${"]]
  optional := true

/-- `lengthRules` and `boundRules` differ but have the same chain, and a value that holds the
separator of values has another fragment than the two values. -/
theorem chain_decodable_lookalikes :
    lengthRules.rules ≠ boundRules.rules ∧ chain lengthRules = chain boundRules ∧
    SameCalls lengthRules boundRules ∧
    fragment (.oneOf ["a`, `b"]) ≠ fragment (.oneOf ["a", "b"]) ∧
    fragment (.pattern "/") = fragment (.pattern "\\/") ∧
    regexLiteral "/" = regexLiteral "\\/" := by
  have hchain : chain lengthRules = chain boundRules := by decide +kernel
  have hpattern : fragment (.pattern "/") = fragment (.pattern "\\/") := by decide +kernel
  obtain ⟨hsame, hvalues, hliteral⟩ := chain_decodable
  have hapart : ["a`, `b"] ≠ ["a", "b"] := by decide
  refine ⟨by decide, hchain, ?_, fun h => hapart (hvalues _ _ h), hpattern, hliteral _ _ hpattern⟩
  exact (hsame lengthRules boundRules (.inr (.inl rfl)) (.inr (.inl rfl))).1 hchain

end SchemaPress.Yup
