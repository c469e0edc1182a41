import SchemaPress.Proofs.TypeScript.Name
import SchemaPress.TypeScript.Interface

/-!
# Reading interfaces

`readInterface` reads an interface declaration and tells which members it declares and which of them
are marked as optional, without regard to comments and types.  It gives back what was written
(`readInterface_interface`): a comment does not end early, and a key is not mistaken for one.
-/

namespace SchemaPress.TypeScript

open Scan

/-! ### Comments -/

/-- The text after the first `*/`. -/
def skipComment : List Char → Option (List Char)
  | [] => none
  | '*' :: '/' :: rest => some rest
  | _ :: rest => skipComment rest

/-- The text after a comment and `follower`, or all of it if it does not start with a comment. -/
def skipDoc (follower : String) (text : List Char) : Option (List Char) :=
  match expect "/** " text with
  | none => some text
  | some comment => (skipComment comment).bind (expect follower)

theorem skipComment_cons {c : Char} {text : List Char} (h : c = '*' → text.head? ≠ some '/') :
    skipComment (c :: text) = skipComment text := by
  rw [skipComment]
  rintro rest rfl rfl
  exact h rfl rfl

theorem head?_guardEnd (cs : List Char) : (guardEnd cs).head? = cs.head? := by
  fun_cases guardEnd cs <;> rfl

/-- `skipComment` does not stop inside of `guardEnd cs`. -/
theorem skipComment_guardEnd (cs rest : List Char) :
    skipComment (guardEnd cs ++ " */".toList ++ rest) = some rest := by
  fun_induction guardEnd cs with
  | case1 cs ih =>
    rw [List.cons_append, List.cons_append, skipComment_cons (by simp),
      List.cons_append, List.cons_append, skipComment_cons (by simp),
      List.cons_append, List.cons_append, skipComment_cons (by simp), ih]
  | case2 c cs hnot ih =>
    rw [List.cons_append, List.cons_append, skipComment_cons, ih]
    -- A slash behind a star would have been guarded.
    rintro rfl hhead
    cases cs with
    | nil => simp [guardEnd] at hhead
    | cons d ds =>
      rw [List.append_assoc, List.head?_append, head?_guardEnd] at hhead
      simp at hhead
      exact hnot ds rfl (by rw [hhead])
  | case3 => rfl

/-- A comment with a guarded text, or the empty text. -/
def IsDoc (comment : String) : Prop :=
  comment = "" ∨ ∃ cs, comment.toList = "/** ".toList ++ (guardEnd cs ++ " */".toList)

theorem isDoc_docComment (enabled : Bool) (description : String) :
    IsDoc (if enabled then docComment description else "") := by
  unfold docComment commentOf
  cases enabled with
  | false => exact .inl rfl
  | true =>
    rw [if_pos rfl]
    split
    case _ => exact .inl rfl
    case _ =>
      refine .inr ⟨(" ".intercalate (Text.words (Html.plainText description))).toList, ?_⟩
      simp only [String.toList_append, String.toList_ofList, List.append_assoc]

theorem skipDoc_of_isDoc {comment : String} (h : IsDoc comment) {follower : String}
    {rest : List Char} (hrest : expect "/** " rest = none) :
    skipDoc follower ((if comment.isEmpty then "" else comment ++ follower).toList ++ rest) =
      some rest := by
  obtain rfl | ⟨cs, hcs⟩ := h
  · show skipDoc follower rest = some rest
    rw [skipDoc, hrest]
  · have hne : comment.isEmpty = false := by
      rw [String.isEmpty_eq_false_iff]
      rintro rfl
      simp at hcs
    rw [hne, if_neg Bool.false_ne_true, String.toList_append, hcs, List.append_assoc,
      List.append_assoc, skipDoc, expect_append]
    dsimp only
    rw [skipComment_guardEnd]
    exact expect_append _ _

/-! ### Members -/

/-- The text between the key of a member and its type. -/
def marker (optional : Bool) : String :=
  if optional then "?: " else ": "

/-- The text after the name of a type. -/
def skipType (text : List Char) : Option (List Char) :=
  ["number", "string", "boolean", "unknown"].findSome? fun word => expect word text

/-- Reads a member, with its comment if it has one. -/
def readMember (text : List Char) : Option (Declared × List Char) := do
  let text ← expect "\n\t" text
  let text ← skipDoc "\n\t" text
  let (key, text) ← readUntil [':', '?'] .outside [] text
  let optional := (expect "?" text).isSome
  let text ← expect (marker optional) text
  let text ← skipType text
  return (⟨key, optional⟩, text)

/-- Reads the members of the interface `name`. -/
def readInterface (name : String) (text : String) : Option (List Declared) := do
  let text ← skipDoc "\n" text.toList
  let text ← expect ("interface " ++ name ++ r" {") text
  readAll readMember "\n\x7d\n".toList text

theorem skipType_typeName (t : PropertyType) (rest : List Char) :
    skipType ((typeName t).toList ++ rest) = some rest := by
  cases t <;> rfl

/-- The key of `p`, which is optional if `style` marks it and `p` is not required. -/
def declared (style : InterfaceStyle) (p : Property) : Declared :=
  ⟨propertyName p.name, style.optionalMarkers && !p.required⟩

theorem expect_doc_propertyName (name : String) (rest : List Char) :
    expect "/** " ((propertyName name).toList ++ rest) = none := by
  obtain ⟨c, cs, hname, hslash, -⟩ := propertyName_head name
  rw [hname]
  exact expect_of_head_ne rfl hslash

theorem toList_memberLines (style : InterfaceStyle) (p : Property) :
    (memberLines style p).toList =
      let comment := if style.comments then docComment p.constraints.description else ""
      "\n\t".toList ++ ((if comment.isEmpty then "" else comment ++ "\n\t").toList ++
        ((propertyName p.name).toList ++ ((marker (declared style p).optional).toList ++
          (typeName p.type).toList))) := by
  have hmark : (if !style.optionalMarkers || p.required then "" else "?") ++ ": " =
      marker (declared style p).optional := by
    unfold declared
    cases style.optionalMarkers <;> cases p.required <;> rfl
  unfold memberLines member
  dsimp only
  rw [← hmark]
  split_ifs <;> simp

theorem readUntil_key (name : String) (optional : Bool) (rest : List Char) :
    readUntil [':', '?'] .outside [] ((propertyName name).toList ++
      ((marker optional).toList ++ rest)) =
        some (propertyName name, (marker optional).toList ++ rest) := by
  cases optional with
  | false => exact readUntil_propertyName (by decide) (by decide) name _
  | true => exact readUntil_propertyName (by decide) (by decide) name _

theorem expect_question (optional : Bool) (rest : List Char) :
    (expect "?" ((marker optional).toList ++ rest)).isSome = optional := by
  cases optional <;> rfl

/-- `readMember` reads back `memberLines`, before any rest. -/
theorem readMember_memberLines (style : InterfaceStyle) (p : Property) (rest : List Char) :
    readMember ((memberLines style p).toList ++ rest) = some (declared style p, rest) := by
  have hdoc := isDoc_docComment style.comments p.constraints.description
  rw [toList_memberLines]
  simp only [List.append_assoc, readMember, expect_append, Option.bind_eq_bind, Option.bind_some,
    skipDoc_of_isDoc hdoc (expect_doc_propertyName _ _), readUntil_key, expect_question,
    skipType_typeName]
  rfl

/-! ### Interfaces -/

theorem memberLines_head (style : InterfaceStyle) (p : Property) :
    ∃ cs, (memberLines style p).toList = '\n' :: '\t' :: cs :=
  ⟨_, toList_memberLines style p⟩

theorem readAll_memberLines (style : InterfaceStyle) (ps : List Property) :
    readAll readMember "\n\x7d\n".toList
      ((String.join (ps.map (memberLines style))).toList ++ "\n\x7d\n".toList) =
        some (ps.map (declared style)) := by
  refine readAll_join (fun p _ => readMember_memberLines style p) (fun p _ rest => ?_)
    (fun p _ => ?_)
  · obtain ⟨cs, hcs⟩ := memberLines_head style p
    rw [hcs]
    simp
  · obtain ⟨cs, hcs⟩ := memberLines_head style p
    rintro hnil
    rw [hnil] at hcs
    cases hcs

theorem expect_doc_interface (name : String) (rest : List Char) :
    expect "/** " (("interface " ++ name ++ r" {").toList ++ rest) = none := by
  rw [String.toList_append, String.toList_append, List.append_assoc, List.append_assoc]
  exact expect_of_head_ne rfl (by decide)

/-- **`readInterface` reads back `interface`**: it gives `declared style` of each property, in
order. -/
theorem readInterface_interface (style : InterfaceStyle) (m : Model) :
    readInterface m.name (interface style m ++ "\n") =
      some (m.properties.toList.map (declared style)) := by
  have hdoc := isDoc_docComment style.comments m.metadata.description
  have htext : interface style m ++ "\n" =
      let comment := if style.comments then docComment m.metadata.description else ""
      (if comment.isEmpty then "" else comment ++ "\n") ++ (("interface " ++ m.name ++ r" {") ++
        (String.join (m.properties.toList.map (memberLines style)) ++ "\n\x7d\n")) := by
    simp only [interface, String.append_assoc]
    rfl
  rw [htext, readInterface, String.toList_append, skipDoc_of_isDoc hdoc, Option.bind_eq_bind,
    Option.bind_some]
  · rw [String.toList_append, expect_append, Option.bind_some, String.toList_append]
    exact readAll_memberLines style m.properties.toList
  · rw [String.toList_append]
    exact expect_doc_interface m.name _

end SchemaPress.TypeScript
