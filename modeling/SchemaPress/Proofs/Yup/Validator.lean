import SchemaPress.Proofs.TypeScript.Name
import SchemaPress.Proofs.Yup.Chain
import SchemaPress.Yup.Validator

/-!
# Reading validators

`readValidator` reads the declaration of an object schema and tells for which keys it has entries,
and whose chains allow a value to be left out.  It gives back what was written
(`readValidator_validator`), because keys, chains and the frame around them do not run into each
other.
-/

namespace SchemaPress.Yup

open Scan TypeScript

/-- Reads an entry whose chain starts with `library`. -/
def readEntry (library : String) (text : List Char) : Option (Declared × List Char) := do
  let (key, text) ← readUntil [':'] .outside [] text
  let text ← expect (": " ++ library) text
  let (_, optional, text) ← readCalls .outside [] text
  let text ← expect ",\n" text
  return (⟨key, optional⟩, text)

/-- The first line of a validator. -/
def heading (name library : String) : String :=
  "export const " ++ name ++ "Validator = " ++ library ++ ".object().shape(\x7b\n"

/-- Reads the entries of the validator of `name`. -/
def readValidator (name library : String) (text : String) : Option (List Declared) := do
  let text ← expect (heading name library) text.toList
  readAll (readEntry library) "\x7d);\n".toList text

/-- The key of `p`, which is optional if `style.honorRequired` and `p` is not required. -/
def declared (style : ValidatorStyle) (p : Property) : Declared :=
  ⟨propertyName p.name, style.honorRequired && !p.required⟩

/-- `derive p`, which is optional if `declared style p` is. -/
def entryRules (style : ValidatorStyle) (p : Property) : PropertyRules :=
  { derive p with optional := (declared style p).optional }

theorem isStandard_entryRules (style : ValidatorStyle) (p : Property) :
    (entryRules style p).tag.IsStandard := by
  unfold entryRules derive
  cases p.type with
  | number => exact .inl rfl
  | string => exact .inr (.inl rfl)
  | boolean => exact .inr (.inr rfl)
  | unsupported => exact .inr (.inr rfl)

theorem toList_entry (style : ValidatorStyle) (p : Property) :
    (entry style p).toList =
      (propertyName p.name).toList ++ ((": " ++ style.library).toList ++
        ((chain (entryRules style p)).toList ++ ",\n".toList)) := by
  simp only [entry, entryRules, declared, String.toList_append, List.append_assoc]

/-- `readEntry` reads back `entry style p`, before any rest. -/
theorem readEntry_entry (style : ValidatorStyle) (p : Property) (rest : List Char) :
    readEntry style.library ((entry style p).toList ++ rest) = some (declared style p, rest) := by
  have hkey : ∀ more, readUntil [':'] .outside []
      ((propertyName p.name).toList ++ ((": " ++ style.library).toList ++ more)) =
        some (propertyName p.name, (": " ++ style.library).toList ++ more) := by
    intro more
    rw [String.toList_append, List.append_assoc]
    exact readUntil_propertyName (by decide) (by decide) p.name _
  rw [toList_entry]
  simp only [List.append_assoc, readEntry, hkey, expect_append, Option.bind_eq_bind,
    Option.bind_some, readCalls_chain (isStandard_entryRules style p)]
  rfl

theorem readAll_entries (style : ValidatorStyle) (ps : List Property) :
    readAll (readEntry style.library) "\x7d);\n".toList
      ((String.join (ps.map (entry style))).toList ++ "\x7d);\n".toList) =
        some (ps.map (declared style)) := by
  refine readAll_join (fun p _ => readEntry_entry style p) (fun p _ rest => ?_) (fun p _ => ?_)
  · -- No key begins with the brace behind the last entry.
    obtain ⟨c, cs, hkey, -, hend⟩ := propertyName_head p.name
    rw [toList_entry, hkey]
    simp [hend]
  · obtain ⟨c, cs, hkey, -, -⟩ := propertyName_head p.name
    rintro hnil
    have hentry := toList_entry style p
    rw [hnil, hkey] at hentry
    cases hentry

/-- **`readValidator` reads back `validator`**: it gives `declared style` of each property, in
order. -/
theorem readValidator_validator (style : ValidatorStyle) (m : Model) :
    readValidator m.name style.library (validator style m) =
      some (m.properties.toList.map (declared style)) := by
  have htext : validator style m = heading m.name style.library ++
      (String.join (m.properties.toList.map (entry style)) ++ "\x7d);\n") := by
    unfold validator heading
    exact String.append_assoc
  rw [readValidator, htext, String.toList_append, expect_append, Option.bind_eq_bind,
    Option.bind_some, String.toList_append]
  exact readAll_entries style m.properties.toList

end SchemaPress.Yup
