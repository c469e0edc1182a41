import SchemaPress.Proofs.OpenApi.KeyOrder

/-!
# Integers as numbers

The option to count an integer as a number changes types and nothing else (`readModels_retyped`).  A
document is read with it just if it is read without it, the errors, the skips and the warnings are
the same, and so is every property up to its type.  The type differs just for a property that
declares an integer and, `null` apart, nothing else: it is a number with the option and unsupported
without it.
-/

namespace SchemaPress

open OpenApi

/-! ### Retyped models -/

/-- The types that the schema of a property declares, other than `null`. -/
def Property.declaredTypes (p : Property) : List String :=
  match p.constraints.raw.toJson?.bind SchemaRef.ofJson? with
  | some (.schema s) => s.properTypes
  | _ => []

/-- The only declared type of the property is `integer`, up to case and blanks around it. -/
def Property.DeclaresInteger (p : Property) : Prop :=
  ∃ name, p.declaredTypes = [name] ∧ Text.lower (Text.trim name) = "integer"

/-- `p'` is `p`, but for the type if `p.DeclaresInteger`, which is `.unsupported` in `p` and
`.number` in `p'`. -/
structure Property.Retyped (p p' : Property) : Prop where
  eq : p' = { p with type := p'.type }
  integer : p.DeclaresInteger → p.type = .unsupported ∧ p'.type = .number
  other : ¬ p.DeclaresInteger → p'.type = p.type

theorem Property.retyped_types (p : Property) {t t' : PropertyType}
    (hinteger : p.DeclaresInteger → t = .unsupported ∧ t' = .number)
    (hother : ¬ p.DeclaresInteger → t' = t) :
    Property.Retyped { p with type := t } { p with type := t' } :=
  ⟨rfl, hinteger, hother⟩

/-- The properties of the models are `Retyped`, and everything else is equal. -/
structure Model.Retyped (m m' : Model) : Prop where
  name : m'.name = m.name
  metadata : m'.metadata = m.metadata
  properties : List.Forall₂ Property.Retyped m.properties.toList m'.properties.toList

namespace OpenApi

/-- The models are `Retyped`, and the skips are equal. -/
structure ReadResult.Retyped (r r' : ReadResult) : Prop where
  models : List.Forall₂ Model.Retyped r.models r'.models
  skipped : r'.skipped = r.skipped

variable {anchors : Anchors}

/-! ### Properties -/

theorem parse_of_integer {name : String} (h : Text.lower (Text.trim name) = "integer") :
    PropertyType.parse false name = .unsupported ∧ PropertyType.parse true name = .number := by
  unfold PropertyType.parse
  rw [h]
  exact ⟨rfl, rfl⟩

/-- `integerAsNumber` changes `parse` for `integer` only. -/
theorem parse_of_not_integer {name : String} (h : Text.lower (Text.trim name) ≠ "integer") :
    PropertyType.parse true name = PropertyType.parse false name := by
  unfold PropertyType.parse
  generalize Text.lower (Text.trim name) = word at h
  split
  case h_4 => exact absurd rfl h
  all_goals rfl

/-- `decodeSchema` reads the schema from the JSON form of the raw value. -/
theorem decodeSchema_eq_some {node : Node} {ref : SchemaRef} {raw : Value}
    (h : decodeSchema anchors node = .ok (some (ref, raw))) :
    raw.toJson?.bind SchemaRef.ofJson? = some ref := by
  unfold decodeSchema at h
  split at h
  · cases hvalue : node.value anchors with
    | error e =>
      rw [hvalue] at h
      cases h
    | ok v =>
      rw [hvalue] at h
      dsimp only [Except.mapError, bind, Except.bind] at h
      split at h
      · rename_i href
        cases h
        exact href
      · cases h
  · cases h

/-- **`readProperty` with `integerAsNumber` and without it gives `Retyped` properties**, or the same
skip or error. -/
theorem readProperty_retyped (anchors : Anchors) (schema : String) (parent : Metadata)
    (entry : Entry) :
    Matched (Sum.LiftRel Property.Retyped Eq)
      (readProperty { integerAsNumber := false } anchors schema parent entry)
      (readProperty { integerAsNumber := true } anchors schema parent entry) := by
  unfold readProperty
  rcases hdecode : decodeSchema anchors entry.node with cause | _ | ⟨target | s, raw⟩
  · exact .error cause
  · exact .ok (.inr rfl)
  · exact .ok (.inr rfl)
  let p : Property :=
    { name := entry.key, required := parent.isRequired entry.key, constraints := s.constraints raw }
  have hdeclared : p.declaredTypes = s.properTypes := by
    have hraw : p.constraints.raw = raw := rfl
    rw [Property.declaredTypes, hraw, decodeSchema_eq_some hdecode]
  dsimp only [bind, Except.bind]
  rcases htypes : s.properTypes with _ | ⟨name, _ | ⟨other, more⟩⟩ <;> rw [htypes] at hdeclared
  · exact .ok (.inr rfl)
  · -- A single type is the only one that the option may change.
    refine .ok (.inl (p.retyped_types ?_ ?_))
    · rintro ⟨name', hname, hinteger⟩
      rw [hdeclared] at hname
      obtain rfl : name = name' := List.singleton_inj.1 hname
      exact parse_of_integer hinteger
    · intro hnot
      exact parse_of_not_integer fun hinteger => hnot ⟨name, hdeclared, hinteger⟩
  · refine .ok (.inl (p.retyped_types ?_ fun _ => rfl))
    rintro ⟨name', hname, -⟩
    rw [hdeclared] at hname
    cases hname

/-- The properties kept are `Retyped`, and skips and failure are equal. -/
structure PropertiesReading.Retyped (r r' : PropertiesReading) : Prop where
  kept : List.Forall₂ Property.Retyped r.kept r'.kept
  skips : r'.skips = r.skips
  cause : r'.cause = r.cause

theorem readProperties_retyped (anchors : Anchors) (schema : String) (parent : Metadata)
    (entries : List Entry) :
    (readProperties { integerAsNumber := false } anchors schema parent entries).Retyped
      (readProperties { integerAsNumber := true } anchors schema parent entries) := by
  induction entries with
  | nil => exact ⟨.nil, rfl, rfl⟩
  | cons entry rest ih =>
    have hread := readProperty_retyped anchors schema parent entry
    rw [readProperties, readProperties]
    generalize readProperty { integerAsNumber := false } anchors schema parent entry = r at hread
    generalize readProperty { integerAsNumber := true } anchors schema parent entry = r' at hread
    cases hread with
    | error cause => exact ⟨.nil, rfl, rfl⟩
    | ok hproperty =>
      cases hproperty with
      | inl hproperty => exact ⟨.cons hproperty ih.kept, ih.skips, ih.cause⟩
      | inr hskip =>
        rw [← hskip]
        exact ⟨ih.kept, congrArg (List.cons _) ih.skips, ih.cause⟩

/-! ### Schemas and documents -/

/-- The model is `Retyped`, and skips and failure are equal. -/
structure SchemaReading.Retyped (r r' : SchemaReading) : Prop where
  skips : r'.skips = r.skips
  outcome : Matched (Option.Rel Model.Retyped) r.outcome r'.outcome

theorem readObject_retyped (anchors : Anchors) (entry : Entry) (s : Schema) (raw : Value) :
    (readObject { integerAsNumber := false } anchors entry s raw).Retyped
      (readObject { integerAsNumber := true } anchors entry s raw) := by
  have hread := readProperties_retyped anchors entry.key (s.metadata raw)
    (propertyEntries anchors entry.node)
  have hnodup := @names_nodup_kept { integerAsNumber := false } anchors entry.key (s.metadata raw)
    entry.node
  have hnodup' := @names_nodup_kept { integerAsNumber := true } anchors entry.key (s.metadata raw)
    entry.node
  unfold readObject
  generalize readProperties { integerAsNumber := false } anchors entry.key (s.metadata raw)
    (propertyEntries anchors entry.node) = read at hread hnodup
  generalize readProperties { integerAsNumber := true } anchors entry.key (s.metadata raw)
    (propertyEntries anchors entry.node) = read' at hread hnodup'
  obtain ⟨kept, skips, cause⟩ := read
  obtain ⟨kept', skips', cause'⟩ := read'
  obtain ⟨hkept, hskips, hcause⟩ := hread
  dsimp only at hkept hskips hcause hnodup hnodup' ⊢
  subst hskips hcause
  cases cause' with
  | some cause => exact ⟨rfl, .error cause⟩
  | none =>
    unfold Model.build
    dsimp only
    by_cases hblank : Text.isBlankText entry.key = true
    · rw [if_pos hblank, if_pos hblank]
      exact ⟨rfl, .error _⟩
    · rw [if_neg hblank, if_neg hblank]
      refine ⟨rfl, .ok (.some ⟨rfl, rfl, ?_⟩)⟩
      rwa [Properties.toList_ofList (hnodup rfl), Properties.toList_ofList (hnodup' rfl)]

theorem readSchema_retyped (anchors : Anchors) (entry : Entry) :
    (readSchema { integerAsNumber := false } anchors entry).Retyped
      (readSchema { integerAsNumber := true } anchors entry) := by
  have hskip : ∀ reason target, (SchemaReading.skip entry.key reason target).Retyped
      (SchemaReading.skip entry.key reason target) := fun _ _ => ⟨rfl, .ok .none⟩
  rw [readSchema_eq, readSchema_eq]
  by_cases hblank : Text.isBlankText entry.key = true
  · rw [if_pos hblank, if_pos hblank]
    exact hskip _ _
  rw [if_neg hblank, if_neg hblank]
  rcases decodeSchema anchors entry.node with cause | _ | ⟨target | s, raw⟩
  · exact ⟨rfl, .error cause⟩
  · exact hskip _ _
  · exact hskip _ _
  · dsimp only
    split_ifs
    · exact hskip _ _
    · exact readObject_retyped anchors entry s raw

theorem readSchemas_retyped (location : String) (anchors : Anchors) (entries : List Entry) :
    Job.Alongside ReadResult.Retyped
      (readSchemas { integerAsNumber := false } location anchors entries)
      (readSchemas { integerAsNumber := true } location anchors entries) := by
  induction entries with
  | nil => exact .pure ⟨.nil, rfl⟩
  | cons entry rest ih =>
    obtain ⟨hskips, houtcome⟩ := readSchema_retyped anchors entry
    rw [readSchemas, readSchemas]
    dsimp only
    rw [hskips]
    refine .bind_same _ fun _ => .bind_same _ fun _ => ?_
    generalize (readSchema { integerAsNumber := false } anchors entry).outcome = r at houtcome
    generalize (readSchema { integerAsNumber := true } anchors entry).outcome = r' at houtcome
    cases houtcome with
    | error cause => exact .throw _
    | ok hmodel =>
      refine ih.bind fun more more' hmore => .pure ⟨?_, ?_⟩
      · cases hmodel with
        | none => exact hmore.models
        | some hmodel => exact .cons hmodel hmore.models
      · exact congrArg (_ ++ ·) hmore.skipped

/-- **`integerAsNumber` is a change of types and nothing else.**  With it and without it,
`readModels` leaves the same session and fails with the same error or gives results that are
`Retyped`. -/
theorem readModels_retyped (document : Document) (session : Session) :
    ((readModels { integerAsNumber := false } document).run.run session).2 =
        ((readModels { integerAsNumber := true } document).run.run session).2 ∧
      Matched ReadResult.Retyped
        ((readModels { integerAsNumber := false } document).run.run session).1
        ((readModels { integerAsNumber := true } document).run.run session).1 := by
  suffices h : Job.Alongside ReadResult.Retyped (readModels { integerAsNumber := false } document)
      (readModels { integerAsNumber := true } document) from h session
  unfold readModels
  refine .bind_same _ fun _ => ?_
  dsimp only
  split
  · exact .throw _
  -- The option is not looked at before the schemas are.
  cases parseTree document.raw with
  | error cause => exact .throw_bind _ _ _
  | ok tree =>
    refine .bind_same _ fun tree => ?_
    cases checkTree tree with
    | error cause => exact .throw_bind _ _ _
    | ok =>
      dsimp only
      split
      · exact readSchemas_retyped document.location tree.anchors _
      · exact .throw _

/-- The type of a property whose schema declares the types `names`. -/
def typeRead (integerAsNumber : Bool) (names : List String) : Option PropertyType :=
  let node := Node.mapping [.ofText "type", .sequence (names.map .ofText)]
  match readProperty { integerAsNumber } #[] "" {} ⟨"", node⟩ with
  | .ok (.inl p) => some p.type
  | _ => none

example :
    typeRead false [" INTEGER", "Null"] = some .unsupported ∧
      typeRead true [" INTEGER", "Null"] = some .number ∧
      typeRead true ["integer", "string"] = some .unsupported := by
  decide +kernel

end OpenApi

end SchemaPress
