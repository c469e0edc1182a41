import SchemaPress.Files.Bundle
import SchemaPress.Page.Template
import SchemaPress.Path
import SchemaPress.Text.Utf8

/-!
# Layouts

A layout puts the pieces of a page together: header lines, preambles and, for each model, a block of
what the renderers wrote.
-/

namespace SchemaPress

/-- The texts of a model. -/
structure Block where
  name : String
  parts : List String := []
  deriving DecidableEq, Repr, Inhabited

/-- The pieces of a generated file. -/
structure Page where
  preambles : List String := []
  blocks : List Block := []
  deriving DecidableEq, Repr, Inhabited

/-- A loaded template and the header lines. -/
structure Layout where
  template : List Template.Part
  header : List String
  deriving Inhabited

namespace Layout

/-- The name of the standard template. -/
def standardName : String := "templates/models.ts.tpl"

/-- The text of the standard template: header lines and preambles each on a line, an empty line if
there is any block, and the blocks, each with an empty line behind it. -/
def standardText : String :=
  "{% for line in header %}{{ line|safe }}\n"
    ++ "{% endfor %}{% for preamble in preambles %}{{ preamble|safe }}\n"
    ++ "{% endfor %}{% if blocks %}\n"
    ++ "{% endif %}{% for block in blocks %}{% for part in block.parts %}"
    ++ "{{ part|safe }}{% endfor %}\n\n"
    ++ "{% endfor %}"

/-- The standard header lines. -/
def standardHeader : List String :=
  ["/* eslint-disable */", "// Code generated by typegen. DO NOT EDIT."]

/-- The options of a layout. -/
structure Options where
  templates : Bundle := ⟨[(standardName, standardText.toUTF8)]⟩
  name : String := standardName
  header : List String := standardHeader
  deriving Inhabited

/-- Takes the template from another bundle, if there is one; a blank name keeps the name. -/
def Options.withTemplates (o : Options) (templates : Option Bundle) (name : String) : Options :=
  match templates with
  | none => o
  | some templates =>
    { o with templates, name := if Text.isBlankText name then o.name else Text.trim name }

/-- Loads a layout. -/
def load (o : Options) : Except LayoutError Layout :=
  match o.templates.read (Path.clean ("./" ++ o.name)) with
  | .error _ => .error (.badTemplate o.name)
  | .ok bytes =>
    match Template.parse? (Text.Utf8.text bytes) with
    | some template => .ok ⟨template, o.header⟩
    | none => .error (.badTemplate o.name)

/-- The standard layout. -/
def standard : Layout :=
  ⟨(Template.parse? standardText).getD [], standardHeader⟩

/-- Texts as a value of a template. -/
def textsDatum (texts : List String) : Template.Datum :=
  .list (texts.map .text)

/-- A block as a value of a template. -/
def blockDatum (b : Block) : Template.Datum :=
  .record [("name", .text b.name), ("parts", textsDatum b.parts)]

/-- The values that a template is filled in from. -/
def scope (l : Layout) (page : Page) : Template.Scope :=
  [("header", textsDatum l.header), ("preambles", textsDatum page.preambles),
    ("blocks", .list (page.blocks.map blockDatum))]

/-- Lays out a page. -/
def execute (l : Layout) (page : Page) : Except LayoutError String :=
  match Template.fill? (l.scope page) l.template with
  | some content => .ok content
  | none => .error .failed

end Layout

end SchemaPress
