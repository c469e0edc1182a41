import SchemaPress.Proofs.OpenApi.Reading
import SchemaPress.Proofs.Value.Alike

/-!
# The fields that a schema is decoded from

A schema is decoded from the entries of its mapping: their values are written as JSON, in the order
of the keys, and then read one after the other (`decodeSchema_eq_schema`).  A field is read under
the name that its key has but for case (`readField_of_sameFold`), and it changes nothing else.
-/

namespace SchemaPress

namespace Node

variable {anchors : Anchors} {levels : Nat}

/-! ### Entries as fields -/

/-- `valueWithin` of each entry, under its key. -/
def fieldsOf (anchors : Anchors) (levels : Nat) (entries : List Entry) :
    Except NodeError (List (String × Value)) :=
  entries.mapM fun e => do return (e.key, ← valueWithin anchors levels e.node)

theorem fieldsOf_cons (e : Entry) (rest : List Entry) :
    fieldsOf anchors levels (e :: rest) = do
      let v ← valueWithin anchors levels e.node
      let more ← fieldsOf anchors levels rest
      return (e.key, v) :: more := by
  unfold fieldsOf
  rw [List.mapM_cons, bind_assoc]
  rfl

theorem fieldsOf_append (es es' : List Entry) :
    fieldsOf anchors levels (es ++ es') = do
      let fields ← fieldsOf anchors levels es
      let more ← fieldsOf anchors levels es'
      return fields ++ more :=
  List.mapM_append

theorem fieldsOf_cons_eq_ok {e : Entry} {rest : List Entry} {fields : List (String × Value)}
    (h : fieldsOf anchors levels (e :: rest) = .ok fields) :
    ∃ v more, valueWithin anchors levels e.node = .ok v ∧
      fieldsOf anchors levels rest = .ok more ∧ fields = (e.key, v) :: more := by
  rw [fieldsOf_cons] at h
  cases hvalue : valueWithin anchors levels e.node with
  | error _ =>
    rw [hvalue] at h
    cases h
  | ok v =>
    rw [hvalue] at h
    cases hrest : fieldsOf anchors levels rest with
    | error _ =>
      rw [hrest] at h
      cases h
    | ok more =>
      rw [hrest] at h
      cases h
      exact ⟨v, more, rfl, rfl, rfl⟩

theorem map_fst_fieldsOf {es : List Entry} {fields : List (String × Value)}
    (h : fieldsOf anchors levels es = .ok fields) : fields.map (·.1) = es.map (·.key) := by
  induction es generalizing fields with
  | nil =>
    cases h
    rfl
  | cons e rest ih =>
    obtain ⟨v, more, -, hmore, rfl⟩ := fieldsOf_cons_eq_ok h
    rw [List.map_cons, List.map_cons, ih hmore]

/-- Each of the fields is the key and the value of an entry. -/
theorem exists_entry_of_mem_fieldsOf {es : List Entry} {fields : List (String × Value)}
    (h : fieldsOf anchors levels es = .ok fields) {name : String} {v : Value}
    (hmem : (name, v) ∈ fields) :
    ∃ e ∈ es, e.key = name ∧ valueWithin anchors levels e.node = .ok v := by
  induction es generalizing fields with
  | nil =>
    cases h
    cases hmem
  | cons e rest ih =>
    obtain ⟨w, more, hw, hmore, rfl⟩ := fieldsOf_cons_eq_ok h
    rcases List.mem_cons.1 hmem with heq | hmem
    · cases heq
      exact ⟨e, List.mem_cons_self, rfl, hw⟩
    · obtain ⟨e', he', hkey, hvalue⟩ := ih hmore hmem
      exact ⟨e', List.mem_cons_of_mem _ he', hkey, hvalue⟩

/-- `valueWithin` of a mapping is `fieldsOf` of its entries, at one level less. -/
theorem valueWithin_of_resolve? {node : Node} {children : List Node}
    (h : node.resolve? anchors = some (.mapping children)) (levels : Nat) :
    valueWithin anchors (levels + 1) node =
      (fieldsOf anchors levels (node.entries anchors)).map .map := by
  have hentries : entries anchors (.mapping children) = node.entries anchors := by
    rw [entries, entries, h]
    rfl
  rw [valueWithin, h]
  dsimp only
  rw [hentries]
  rfl

/-- A node with the value `null` has it within any number of levels. -/
theorem valueWithin_of_value_null {node : Node} (h : node.value anchors = .ok .null)
    (levels : Nat) : valueWithin anchors (levels + 1) node = .ok .null := by
  rw [value, valueWithin] at h
  rw [valueWithin]
  generalize node.resolve? anchors = resolved at h ⊢
  rcases resolved with _ | ⟨s | items | children | anchor | content⟩
  · rfl
  · exact h
  · dsimp only at h
    cases hitems : items.mapM (valueWithin anchors maxDepth) with
    | error e =>
      rw [hitems] at h
      cases h
    | ok vs =>
      rw [hitems] at h
      cases h
  · have hfields : (fieldsOf anchors maxDepth (entries anchors (.mapping children))).map Value.map =
        .ok .null := h
    cases hok : fieldsOf anchors maxDepth (entries anchors (.mapping children)) with
    | error e =>
      rw [hok] at hfields
      cases hfields
    | ok fields =>
      rw [hok] at hfields
      cases hfields
  · rfl
  · rfl

end Node

/-! ### Fields of a value -/

/-- The names of the fields of a map; other values have none. -/
def Value.fieldNames : Value → List String
  | .map fields => fields.map (·.1)
  | _ => []

theorem forall_mem_orElse {α : Type} {P : α → Prop} {a : Option α} {b : Unit → Option α}
    (ha : ∀ x ∈ a, P x) (hb : ∀ x ∈ b (), P x) : ∀ x ∈ a.orElse b, P x := by
  cases a with
  | none => exact hb
  | some x => exact ha

namespace Spelling

theorem fieldNames_of_mem_map {α : Type} {f : α → Tag × Value} (hf : ∀ x, (f x).2.fieldNames = [])
    (a : Option α) : ∀ r ∈ a.map f, r.2.fieldNames = [] := by
  intro r hr
  obtain ⟨x, -, rfl⟩ := Option.map_eq_some_iff.1 hr
  exact hf x

theorem fieldNames_of_mem_named? (s : String) : ∀ r ∈ named? s, r.2.fieldNames = [] := by
  unfold named?
  intro r hr
  split_ifs at hr <;> cases hr <;> rfl

theorem fieldNames_of_mem_number? (cs : List Char) : ∀ r ∈ number? cs, r.2.fieldNames = [] := by
  refine forall_mem_orElse (fieldNames_of_mem_map (fun _ => rfl) _) ?_
  refine forall_mem_orElse (fieldNames_of_mem_map (fun _ => rfl) _) ?_
  refine forall_mem_orElse (fieldNames_of_mem_map (fun _ => rfl) _) ?_
  exact fieldNames_of_mem_map (fun _ => rfl) _

theorem fieldNames_of_mem_read? (times : Bool) (s : String) :
    ∀ r ∈ read? times s, r.2.fieldNames = [] := by
  have hnone : ∀ r ∈ (none : Option (Tag × Value)), r.2.fieldNames = [] := by
    intro r hr
    cases hr
  unfold read?
  refine forall_mem_orElse (fieldNames_of_mem_named? s) ?_
  split
  · split_ifs
    · exact fieldNames_of_mem_map (fun _ => rfl) _
    · exact hnone
  · split_ifs
    · exact forall_mem_orElse (fieldNames_of_mem_map (fun _ => rfl) _)
        (fieldNames_of_mem_number? _)
    · exact forall_mem_orElse hnone (fieldNames_of_mem_number? _)
    · exact hnone
  · exact hnone

end Spelling

/-- The value of a scalar has no fields. -/
theorem Scalar.fieldNames_value? {s : Scalar} {v : Value} (h : s.value? = some v) :
    v.fieldNames = [] := by
  unfold value? at h
  split at h
  case h_4 =>
    obtain ⟨t, -, rfl⟩ := Option.map_eq_some_iff.1 h
    rfl
  case h_5 =>
    unfold spelled? at h
    split at h
    · rename_i hread
      split_ifs at h
      · cases h
        exact Spelling.fieldNames_of_mem_read? _ _ _ hread
      · split at h
        · split_ifs at h
          cases h
          rfl
        · cases h
    · cases h
  all_goals
    cases h
    rfl

namespace Node

variable {anchors : Anchors} {levels : Nat}

/-- The result of `resolveWithin` resolves to itself. -/
theorem resolveWithin_of_eq_some {steps : Nat} {node m : Node}
    (h : node.resolveWithin anchors steps = some m) (more : Nat) :
    m.resolveWithin anchors (more + 1) = some m := by
  induction steps generalizing node with
  | zero => cases h
  | succ steps ih =>
    rcases node with s | items | children | anchor | content
    · cases h
      rfl
    · cases h
      rfl
    · cases h
      rfl
    · rw [resolveWithin] at h
      split at h
      · exact ih h
      · cases h
    · cases content with
      | nil => cases h
      | cons first rest => exact ih h

theorem entries_of_resolve? {node m : Node} (h : node.resolve? anchors = some m) :
    m.entries anchors = node.entries anchors := by
  have hm : m.resolve? anchors = some m := resolveWithin_of_eq_some h 511
  rw [entries, entries, h, hm]

/-- **The field names of a value are the keys of the entries of its node.** -/
theorem fieldNames_of_valueWithin {node : Node} {v : Value}
    (h : valueWithin anchors levels node = .ok v) :
    v.fieldNames = (node.entries anchors).map (·.key) := by
  cases levels with
  | zero => cases h
  | succ levels =>
    rcases hnode : node.resolve? anchors with _ | ⟨s | items | children | anchor | content⟩
    case some.mapping =>
      rw [valueWithin_of_resolve? hnode] at h
      cases hfields : fieldsOf anchors levels (node.entries anchors) with
      | error e =>
        rw [hfields] at h
        cases h
      | ok fields =>
        rw [hfields] at h
        cases h
        exact map_fst_fieldsOf hfields
    all_goals
      have hentries : node.entries anchors = [] := by
        rw [entries, hnode]
      rw [hentries, List.map_nil]
      rw [valueWithin, hnode] at h
      dsimp only at h
    · cases h
      rfl
    · split at h
      · cases h
        exact Scalar.fieldNames_value? ‹_›
      · cases h
    · cases hitems : items.mapM (valueWithin anchors levels) with
      | error e =>
        rw [hitems] at h
        cases h
      | ok vs =>
        rw [hitems] at h
        cases h
        rfl
    · cases h
      rfl
    · cases h
      rfl

end Node

theorem Value.toFields?_append (fields more : List (String × Value)) :
    toFields? (fields ++ more) = do
      let forms ← toFields? fields
      let others ← toFields? more
      return forms ++ others := by
  induction fields with
  | nil =>
    cases hmore : toFields? more <;> simp [toFields?, hmore]
  | cons f rest ih =>
    rw [List.cons_append, toFields?, toFields?, ih]
    cases f.2.toJson? with
    | none => rfl
    | some form =>
      cases toFields? rest with
      | none => rfl
      | some forms => cases toFields? more <;> rfl

namespace OpenApi

open Text

variable {anchors : Anchors}

/-- `decodeSchema` of a mapping is `SchemaRef.ofJson?` of the JSON form of its fields. -/
theorem decodeSchema_of_resolve? {node : Node} {children : List Node}
    (h : node.resolve? anchors = some (.mapping children)) :
    decodeSchema anchors node = (do
      let fields ← (Node.fieldsOf anchors maxDepth (node.entries anchors)).mapError .ofNode
      match (Value.map fields).toJson?.bind SchemaRef.ofJson? with
      | some ref => .ok (some (ref, .map fields))
      | none => .error .foreign) := by
  unfold decodeSchema
  rw [h]
  dsimp only
  rw [Node.value, Node.valueWithin_of_resolve? h]
  cases Node.fieldsOf anchors maxDepth (node.entries anchors) <;> rfl

theorem exists_resolve?_of_decodeSchema {node : Node} {d : SchemaRef × Value}
    (h : decodeSchema anchors node = .ok (some d)) :
    ∃ children, node.resolve? anchors = some (.mapping children) := by
  unfold decodeSchema at h
  split at h
  · exact ⟨_, ‹_›⟩
  · cases h

/-- **A decoded schema is `Schema.ofFields` of the JSON forms of the entries**, sorted by key. -/
theorem decodeSchema_eq_schema {node : Node} {s : Schema} {raw : Value}
    (h : decodeSchema anchors node = .ok (some (.schema s, raw))) :
    ∃ fields forms, Node.fieldsOf anchors maxDepth (node.entries anchors) = .ok fields ∧
      raw = .map fields ∧ Value.toFields? fields = some forms ∧
      s = .ofFields (sortFields forms) := by
  obtain ⟨children, hnode⟩ := exists_resolve?_of_decodeSchema h
  rw [decodeSchema_of_resolve? hnode] at h
  cases hfields : Node.fieldsOf anchors maxDepth (node.entries anchors) with
  | error e =>
    rw [hfields] at h
    cases h
  | ok fields =>
    rw [hfields] at h
    dsimp only [bind, Except.bind, Except.mapError] at h
    rw [Value.toJson?] at h
    cases hforms : Value.toFields? fields with
    | none =>
      rw [hforms] at h
      cases h
    | some forms =>
      rw [hforms, Option.map_some, Option.bind_some] at h
      unfold SchemaRef.ofJson? at h
      dsimp only at h
      refine ⟨fields, forms, rfl, ?_⟩
      split_ifs at h
      cases htarget : target? (sortFields forms) with
      | some target =>
        rw [htarget] at h
        cases h
      | none =>
        rw [htarget] at h
        cases h
        exact ⟨rfl, hforms, rfl⟩

/-! ### Names of fields -/

/-- Keys with the same fold find the same one of `Kind.schema.fields`. -/
theorem find?_fields_of_sameFold {name key : String} (h : sameFold name key = true) :
    Kind.schema.fields.find? (fun f => sameFold f.1 key) =
      Kind.schema.fields.find? fun f => sameFold f.1 name := by
  have hfold : fold name = fold key := beq_iff_eq.1 h
  unfold sameFold
  rw [hfold]

/-- `s` with the field as an extension, if its key starts with `x-`. -/
def Schema.noteExtension (s : Schema) (field : String × Json) : Schema :=
  if field.1.startsWith "x-" then
    { s with extensions := s.extensions ++ [(field.1, field.2.toValue)] }
  else s

/-- **`readField` is `setField` at the first name with the same fold as `key`**, after
`noteExtension`, or only `noteExtension` if there is no such name. -/
theorem readField_cases (key : String) :
    (∃ f ∈ Kind.schema.fields, sameFold f.1 key = true ∧
      ∀ (s : Schema) (v : Json), s.readField (key, v) = (s.noteExtension (key, v)).setField f.1 v) ∨
    (∀ f ∈ Kind.schema.fields, sameFold f.1 key = false) ∧
      ∀ (s : Schema) (v : Json), s.readField (key, v) = s.noteExtension (key, v) := by
  cases hfind : Kind.schema.fields.find? fun f => sameFold f.1 key with
  | some f =>
    have hfold : sameFold f.1 key = true := (List.find?_eq_some_iff_append.1 hfind).1
    refine .inl ⟨f, List.mem_of_find?_eq_some hfind, hfold, fun s v => ?_⟩
    rw [Schema.readField]
    dsimp only
    rw [hfind]
    rfl
  | none =>
    have hnone := List.find?_eq_none.1 hfind
    refine .inr ⟨fun f hf => Bool.eq_false_iff.2 (hnone f hf), fun s v => ?_⟩
    rw [Schema.readField]
    dsimp only
    rw [hfind]
    rfl

/-- If `name` has the same fold as `key`, `readField` at `key` is `setField` at `name`. -/
theorem readField_of_sameFold {name key : String}
    (hname : (Kind.schema.fields.find? fun f => sameFold f.1 name).map (·.1) = some name)
    (h : sameFold name key = true) (s : Schema) (v : Json) :
    s.readField (key, v) = (s.noteExtension (key, v)).setField name v := by
  rw [← find?_fields_of_sameFold h] at hname
  obtain ⟨⟨_, shape⟩, hfind, rfl⟩ := Option.map_eq_some_iff.1 hname
  rw [Schema.readField]
  dsimp only
  rw [hfind]
  rfl

/-! ### Sorted fields -/

/-- `insertField` puts a field between the smaller keys and the others. -/
theorem insertField_eq_append {α : Type} (field : String × α) {fields : List (String × α)}
    (h : fields.Pairwise fun f g => f.1 ≤ g.1) :
    ∃ before after, fields = before ++ after ∧ insertField field fields = before ++ field :: after ∧
      (∀ f ∈ before, f.1 < field.1) ∧ ∀ f ∈ after, field.1 ≤ f.1 := by
  induction fields with
  | nil => exact ⟨[], [], rfl, rfl, by simp, by simp⟩
  | cons other rest ih =>
    obtain ⟨hother, hrest⟩ := List.pairwise_cons.1 h
    rw [insertField]
    split_ifs with hle
    · refine ⟨[], other :: rest, rfl, rfl, by simp, fun f hf => ?_⟩
      rcases List.mem_cons.1 hf with rfl | hf
      · exact hle
      · exact String.le_trans hle (hother f hf)
    · obtain ⟨before, after, rfl, heq, hbefore, hafter⟩ := ih hrest
      refine ⟨other :: before, after, rfl, by rw [heq]; rfl, fun f hf => ?_, hafter⟩
      rcases List.mem_cons.1 hf with rfl | hf
      · exact String.not_le.1 hle
      · exact hbefore f hf

end OpenApi

end SchemaPress
