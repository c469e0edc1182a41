import SchemaPress.Page.Layout

/-!
# The standard layout

The standard template is read as four parts (`parse?_standardText`), and so is what a layout with
the standard template is loaded from (`load_standard`).  Filled in with a page, they give the header
lines, the preambles, an empty line if there is any block, and the blocks, character by character
(`execute_standard`): nothing is escaped, whatever the pieces are.
-/

namespace SchemaPress

open Template

/-! ### Reading the template -/

namespace Layout

/-- The chunks of `standardText`. -/
def standardChunks : List Chunk :=
  [.tag " for line in header ".toList, .output " line|safe ".toList, .text ['\n'],
    .tag " endfor ".toList, .tag " for preamble in preambles ".toList,
    .output " preamble|safe ".toList, .text ['\n'], .tag " endfor ".toList,
    .tag " if blocks ".toList, .text ['\n'], .tag " endif ".toList,
    .tag " for block in blocks ".toList, .tag " for part in block.parts ".toList,
    .output " part|safe ".toList, .tag " endfor ".toList, .text ['\n', '\n'],
    .tag " endfor ".toList]

/-- The parts of `standardText`. -/
def standardParts : List Part :=
  [.each "line" { name := "header" } [.output { name := "line", safe := true }, .text "\n"],
    .each "preamble" { name := "preambles" }
      [.output { name := "preamble", safe := true }, .text "\n"],
    .choice { name := "blocks" } [.text "\n"] [],
    .each "block" { name := "blocks" }
      [.each "part" { name := "block", path := ["parts"] }
          [.output { name := "part", safe := true }],
        .text "\n\n"]]

theorem chunks?_standardText :
    chunks? .text [] standardText.toList = some standardChunks := by
  -- Line by line, because to take a long text apart is slow.
  unfold standardText
  rw [String.toList_append, String.toList_append, String.toList_append, String.toList_append,
    String.toList_append]
  decide +kernel

theorem foldlM_standardChunks :
    standardChunks.foldlM Reading.step? {} = some ⟨standardParts.reverse, []⟩ := by
  rfl

theorem parse?_standardText : parse? standardText = some standardParts := by
  unfold parse?
  rw [chunks?_standardText, Option.bind_eq_bind, Option.bind_some, foldlM_standardChunks]
  rfl

end Layout

/-- `load` succeeds if the template can be read and parsed. -/
theorem Layout.load_of_parse? {o : Options} {bytes : ByteArray} {parts : List Part}
    (hread : o.templates.read (Path.clean ("./" ++ o.name)) = .ok bytes)
    (hparse : parse? (Text.Utf8.text bytes) = some parts) : load o = .ok ⟨parts, o.header⟩ := by
  unfold load
  rw [hread]
  dsimp only
  rw [hparse]

theorem Layout.load_standard (header : List String) :
    load { header } = .ok ⟨standardParts, header⟩ := by
  have hname : Path.clean ("./" ++ standardName) = standardName := by decide +kernel
  have hfile : Bundle.read ⟨[(standardName, standardText.toUTF8)]⟩
      (Path.clean ("./" ++ standardName)) = .ok standardText.toUTF8 := by
    rw [hname]
    rfl
  have hparse : parse? (Text.Utf8.text standardText.toUTF8) = some standardParts := by
    rw [Text.Utf8.text_toUTF8, parse?_standardText]
  exact load_of_parse? hfile hparse

/-! ### Filling it in -/

namespace Template

theorem mapM_eq_some_map {α β : Type} {f : α → Option β} {g : α → β} (h : ∀ a, f a = some (g a))
    (items : List α) : items.mapM f = some (items.map g) := by
  induction items with
  | nil => rfl
  | cons item rest ih =>
    rw [List.mapM_cons, h item, ih]
    rfl

/-- `Part.each` prints its body for each of the values. -/
theorem fill?_each {α : Type} {scope : Scope} {name : String} {values : Expression}
    {body : List Part} {datum : α → Datum} {items : List α} {piece : α → String}
    (hvalues : values.value? scope = some (.list (items.map datum)))
    (hbody : ∀ item, fill? ((name, datum item) :: scope) body = some (piece item)) :
    (Part.each name values body).fill? scope = some (String.join (items.map piece)) := by
  have hpieces : (items.map datum).mapM (fun d => fill? ((name, d) :: scope) body) =
      some (items.map piece) := by
    rw [List.mapM_map]
    exact mapM_eq_some_map hbody items
  rw [Part.fill?, hvalues, Option.bind_eq_bind, Option.bind_some, Datum.items, hpieces]
  rfl

theorem fill?_cons {scope : Scope} {part : Part} {rest : List Part} {a b : String}
    (hpart : part.fill? scope = some a) (hrest : fill? scope rest = some b) :
    fill? scope (part :: rest) = some (a ++ b) := by
  rw [fill?, hpart, hrest]
  rfl

theorem fill?_text (scope : Scope) (s : String) : fill? scope [.text s] = some s := by
  rw [fill?, Part.fill?, fill?]
  exact congrArg some (String.append_empty)

/-- `Part.output` with `safe` prints the innermost value of `name` unescaped. -/
theorem fill?_output_safe (scope : Scope) (name s : String) :
    (Part.output { name, safe := true }).fill? ((name, .text s) :: scope) = some s := by
  have hvalue : Expression.value? ((name, .text s) :: scope) { name, safe := true } =
      some (.text s) := by
    simp [Expression.value?]
  rw [Part.fill?, hvalue]
  rfl

end Template

namespace Layout

/-- Each line of `header` and of `preambles`, an empty line if there is a block, and each block as
its parts and an empty line. -/
def fileText (header preambles : List String) (blocks : List (List String)) : String :=
  String.join (header.map (· ++ "\n")) ++ (String.join (preambles.map (· ++ "\n"))
    ++ ((if blocks.isEmpty then "" else "\n")
    ++ String.join (blocks.map fun parts => String.join parts ++ "\n\n")))

theorem fill?_lines {scope : Scope} (name : String) {values : Expression} {lines : List String}
    (hvalues : values.value? scope = some (textsDatum lines)) :
    (Part.each name values [.output { name, safe := true }, .text "\n"]).fill? scope =
      some (String.join (lines.map (· ++ "\n"))) :=
  fill?_each hvalues fun line => fill?_cons (fill?_output_safe scope name line) (fill?_text _ _)

/-- `Part.each` over `block.parts` prints the parts one after the other. -/
theorem fill?_parts (scope : Scope) (b : Block) :
    (Part.each "part" { name := "block", path := ["parts"] }
      [.output { name := "part", safe := true }]).fill? (("block", blockDatum b) :: scope) =
      some (String.join b.parts) := by
  have hvalues : Expression.value? (("block", blockDatum b) :: scope)
      { name := "block", path := ["parts"] } = some (textsDatum b.parts) := rfl
  have hbody (part : String) : fill? (("part", .text part) :: ("block", blockDatum b) :: scope)
      [.output { name := "part", safe := true }] = some part := by
    rw [fill?, fill?_output_safe, fill?]
    exact congrArg some String.append_empty
  rw [fill?_each hvalues hbody, List.map_id']

/-- `standardParts` print `fileText`. -/
theorem fill?_standardParts (header : List String) (page : Page) :
    fill? (scope ⟨standardParts, header⟩ page) standardParts =
      some (fileText header page.preambles (page.blocks.map (·.parts))) := by
  generalize hscope : scope ⟨standardParts, header⟩ page = values
  have hheader : Expression.value? values { name := "header" } = some (textsDatum header) := by
    rw [← hscope]
    rfl
  have hpreambles : Expression.value? values { name := "preambles" } =
      some (textsDatum page.preambles) := by
    rw [← hscope]
    rfl
  have hblocks : Expression.value? values { name := "blocks" } =
      some (.list (page.blocks.map blockDatum)) := by
    rw [← hscope]
    rfl
  have hgap : (Part.choice { name := "blocks" } [.text "\n"] []).fill? values =
      some (if page.blocks.isEmpty then "" else "\n") := by
    rw [Part.fill?, hblocks, Option.bind_eq_bind, Option.bind_some]
    cases page.blocks with
    | nil => rfl
    | cons => exact fill?_text _ _
  have hbody (b : Block) := fill?_cons (fill?_parts values b) (fill?_text _ "\n\n")
  have hnothing : fill? values [] = some "" := by rw [fill?]
  have hfile := fill?_cons (fill?_lines "line" hheader) <|
    fill?_cons (fill?_lines "preamble" hpreambles) <| fill?_cons hgap <|
    fill?_cons (fill?_each hblocks hbody) hnothing
  rw [standardParts, hfile, fileText, List.isEmpty_map, List.map_map, String.append_empty]
  rfl

/-- **`execute` with `standardParts` gives `fileText`**, and never fails. -/
theorem execute_standard (header : List String) (page : Page) :
    execute ⟨standardParts, header⟩ page =
      .ok (fileText header page.preambles (page.blocks.map (·.parts))) := by
  unfold execute
  rw [fill?_standardParts]

end Layout

end SchemaPress
