import SchemaPress.OpenApi.Reading
import SchemaPress.Proofs.Node.OfJson

/-!
# Documents that are JSON texts

A document that is a text of the JSON grammar is read as the value that the text spells, and its
tree denotes that value (`decodeJson_faithful`): nothing is lost but the order of names and the
occurrences of a name that a later one overrides.  The one limit is the depth: a text that is nested
deeper than `maxDepth` is refused as such, and a text that is not is never refused for its depth
later on.
-/

namespace SchemaPress.OpenApi

variable {raw : ByteArray} {v : Json} {tree : Tree}

theorem decodeJson_eq_ok_iff : decodeJson v = .ok tree ↔ Node.ofJson? v = some tree := by
  unfold decodeJson
  cases Node.ofJson? v <;> simp

theorem exists_decodeJson (h : v.depth ≤ maxDepth) : ∃ tree, decodeJson v = .ok tree := by
  obtain ⟨node, hnode⟩ := Option.isSome_iff_exists.1 (Node.isSome_ofJsonWithin_iff.2 h)
  refine ⟨⟨node, #[]⟩, decodeJson_eq_ok_iff.2 ?_⟩
  rw [Node.ofJson?, hnode, Option.map_some]

theorem root_of_decodeJson_object {fields : List (String × Json)}
    (h : decodeJson (.object fields) = .ok tree) : ∃ children, tree.root = .mapping children := by
  obtain ⟨node, hnode, rfl⟩ := Option.map_eq_some_iff.1 (decodeJson_eq_ok_iff.1 h)
  rw [Node.ofJsonWithin] at hnode
  obtain ⟨children, -, rfl⟩ := Option.map_eq_some_iff.1 hnode
  exact ⟨children, rfl⟩

theorem decodeJson_eq_error (h : maxDepth < v.depth) : decodeJson v = .error .tooDeep := by
  have hnone : Node.ofJson? v = none := by
    rw [Node.ofJson?, Option.map_eq_none_iff, ← Option.not_isSome_iff_eq_none,
      Node.isSome_ofJsonWithin_iff]
    omega
  rw [decodeJson, hnone]

theorem parseTree_of_decodeJson_error {cause : Cause}
    (h : Json.parse? (Text.Utf8.decode raw.toList) = some v)
    (hdecode : decodeJson v = .error cause) : parseTree raw = .error cause := by
  unfold parseTree
  dsimp only
  rw [h]
  dsimp only
  rw [hdecode]
  rfl

theorem parseTree_of_mapping {children : List Node} (hroot : tree.root = .mapping children)
    (h : Json.parse? (Text.Utf8.decode raw.toList) = some v) (hdecode : decodeJson v = .ok tree) :
    parseTree raw = .ok tree := by
  have hresolve : tree.root.resolve? tree.anchors = some (.mapping children) := by
    rw [hroot]
    rfl
  unfold parseTree
  dsimp only
  rw [h]
  dsimp only
  rw [hdecode]
  dsimp only [bind, Except.bind]
  rw [hresolve]
  dsimp only
  rw [← hroot]

/-- The value of `decodeJson v` is an `Outcome` of `v`. -/
theorem outcome_decodeJson (hspelled : v.NumbersSpelled) (h : decodeJson v = .ok tree) :
    Node.Outcome v (tree.root.value tree.anchors) := by
  obtain ⟨node, hnode, rfl⟩ := Option.map_eq_some_iff.1 (decodeJson_eq_ok_iff.1 h)
  exact Node.outcome_ofJsonWithin hspelled hnode

/-- **A JSON text is read as the value `v` that it spells.**  If `v.depth ≤ maxDepth` and
`v.NumbersDecode`, it has a tree, and the tree has a value that `v` denotes.  If
`maxDepth < v.depth`, the answer is `.tooDeep`.  A text that has a tree is not refused for its depth
again. -/
theorem decodeJson_faithful (htext : v.IsText (Text.Utf8.decode raw.toList)) :
    (v.depth ≤ maxDepth → v.NumbersDecode →
      Json.parse? (Text.Utf8.decode raw.toList) = some v ∧
      ∃ tree value, decodeJson v = .ok tree ∧ tree.root.value tree.anchors = .ok value ∧
        v.Denotes value ∧ ((∃ fields, v = .object fields) → parseTree raw = .ok tree)) ∧
    (maxDepth < v.depth →
      decodeJson v = .error .tooDeep ∧ Cause.tooDeep.message = "document nesting too deep" ∧
        (v.nesting ≤ Json.maxNesting → parseTree raw = .error .tooDeep)) ∧
    ∀ tree, decodeJson v = .ok tree → tree.root.value tree.anchors ≠ .error .tooDeep := by
  have hspelled : v.NumbersSpelled := by
    obtain ⟨-, cs, -, -, hspells, -⟩ := htext
    exact hspells.numbersSpelled
  refine ⟨fun hdepth hnumbers => ?_, fun hdepth => ?_, fun tree htree herror => ?_⟩
  · have hnesting : v.nesting ≤ Json.maxNesting := by
      have hle := v.nesting_le_depth
      have hlimit : maxDepth + 1 ≤ Json.maxNesting := by decide
      omega
    have hparse := Json.parse?_of_isText htext hnesting
    obtain ⟨tree, htree⟩ := exists_decodeJson hdepth
    have houtcome := outcome_decodeJson hspelled htree
    cases hvalue : tree.root.value tree.anchors with
    | ok value =>
      rw [hvalue] at houtcome
      refine ⟨hparse, tree, value, htree, hvalue, houtcome.denotes, ?_⟩
      rintro ⟨fields, rfl⟩
      obtain ⟨children, hroot⟩ := root_of_decodeJson_object htree
      exact parseTree_of_mapping hroot hparse htree
    | error e =>
      rw [hvalue] at houtcome
      obtain ⟨literal, hnumber, hbad, -⟩ := houtcome.exists_number
      exact absurd (hnumbers literal hnumber) hbad
  · have hdecode := decodeJson_eq_error hdepth
    exact ⟨hdecode, rfl, fun hnesting =>
      parseTree_of_decodeJson_error (Json.parse?_of_isText htext hnesting) hdecode⟩
  · have houtcome := outcome_decodeJson hspelled htree
    rw [herror] at houtcome
    obtain ⟨-, -, -, heq⟩ := houtcome.exists_number
    cases heq

/-! ### A text with a repeated name -/

/-- A text in which the name `a` occurs three times, at two levels. -/
def repeatedText : ByteArray :=
  r#"{"a": 1, "b": [2.5, "\u00e9"], "a": {"a": -7}}"#.toUTF8

/-- The value of `repeatedText`. -/
def repeatedJson : Json :=
  .object [("a", .number "1"), ("b", .array [.number "2.5", .string "é"]),
    ("a", .object [("a", .number "-7")])]

theorem isText_repeatedText : repeatedJson.IsText (Text.Utf8.decode repeatedText.toList) := by
  have hgap : Json.IsGap [] := nofun
  have hblank : Json.IsGap [' '] := by simp [Json.IsGap, Json.isGap]
  have ha : Json.SpellsString ['a'] ['a', '"'] := Json.spellsString_of_all rfl
  have hb : Json.SpellsString ['b'] ['b', '"'] := Json.spellsString_of_all rfl
  have hone : Json.Spells (.value (.number "1")) ['1'] := .number <|
    @Json.IsNumeral.mk [] ['1'] [] [] (.inl rfl) (.inr ⟨Json.isDigits_singleton rfl, by decide⟩)
      (.inl rfl) (.inl rfl)
  have hseven : Json.Spells (.value (.number "-7")) ['-', '7'] := .number <|
    @Json.IsNumeral.mk ['-'] ['7'] [] [] (.inr rfl) (.inr ⟨Json.isDigits_singleton rfl, by decide⟩)
      (.inl rfl) (.inl rfl)
  have hhalf : Json.Spells (.value (.number "2.5")) ['2', '.', '5'] := .number <|
    @Json.IsNumeral.mk [] ['2'] ['.', '5'] [] (.inl rfl)
      (.inr ⟨Json.isDigits_singleton rfl, by decide⟩)
      (.inr ⟨['5'], Json.isDigits_singleton rfl, rfl⟩) (.inl rfl)
  have haccent : Json.Spells (.value (.string "é")) ['"', '\\', 'u', '0', '0', 'e', '9', '"'] :=
    .string (@Json.SpellsString.unit [] ['"'] ['0', '0', 'e', '9'] 0xe9 ⟨rfl, rfl⟩ rfl rfl .close)
  have harray := Json.Spells.array (.item hgap hhalf hgap (.lastItem hblank haccent hgap))
  have hobject := Json.Spells.object (.lastField hgap ha hgap hblank hseven hgap)
  have hroot := Json.Spells.object (.field hgap ha hgap hblank hone hgap
    (.field hblank hb hgap hblank harray hgap (.lastField hblank ha hgap hblank hobject hgap)))
  exact ⟨[], _, [], hgap, hroot, hgap, by decide +kernel⟩

theorem numbersDecode_repeatedJson : repeatedJson.NumbersDecode := by
  have hall : ∀ literal ∈ ["1", "2.5", "-7"], Json.Decodes literal := by
    unfold Json.Decodes
    decide +kernel
  rintro literal (_ | _ | ⟨hf, h⟩)
  refine hall literal ?_
  simp only [List.mem_cons, List.not_mem_nil, or_false] at hf
  rcases hf with rfl | rfl | rfl
  · cases h
    decide
  · rcases h with _ | ⟨hv, h⟩ | _
    simp only [List.mem_cons, List.not_mem_nil, or_false] at hv
    rcases hv with rfl | rfl
    · cases h
      decide
    · cases h
  · rcases h with _ | _ | ⟨hf, h⟩
    simp only [List.mem_cons, List.not_mem_nil, or_false] at hf
    subst hf
    cases h
    decide

theorem decodeJson_faithful_repeatedText :
    repeatedJson.IsText (Text.Utf8.decode repeatedText.toList) ∧ repeatedJson.depth ≤ maxDepth ∧
      repeatedJson.NumbersDecode ∧
      ∃ tree value, parseTree repeatedText = .ok tree ∧ tree.root.value tree.anchors = .ok value ∧
        repeatedJson.Denotes value := by
  have hdepth : repeatedJson.depth ≤ maxDepth := by decide +kernel
  obtain ⟨-, tree, value, -, hvalue, hdenotes, hparse⟩ :=
    (decodeJson_faithful isText_repeatedText).1 hdepth numbersDecode_repeatedJson
  exact ⟨isText_repeatedText, hdepth, numbersDecode_repeatedJson, tree, value, hparse ⟨_, rfl⟩,
    hvalue, hdenotes⟩

end SchemaPress.OpenApi
