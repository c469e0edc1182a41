import SchemaPress.Proofs.OpenApi.SchemaFields
import SchemaPress.Yup.Validator

/-!
# Constraints that are null

`null` under the keyword of a constraint should say as much as no such key.  It does for most
keywords if the schema has no other spelling of the keyword, because a field with `null` is read as
an absent one or is not read at all.  The exception is the least length, which counts as given when
its key is there: with `null` under it, the least length is zero, and a rule is derived from that.

Where a schema has two spellings of a keyword, `null` under the keyword itself takes back a bound or
the allowed values that stand under a spelling in front of it.  `readProperty_null` compares the two
readings in all cases.
-/

namespace SchemaPress.OpenApi

open Text

/-- The keywords of the fields of `Constraints`. -/
inductive Keyword where
  | minimum
  | maximum
  | minLength
  | maxLength
  | pattern
  | enum
  deriving DecidableEq, Repr

namespace Keyword

/-- The key of a keyword in a schema. -/
def name : Keyword → String
  | .minimum => "minimum"
  | .maximum => "maximum"
  | .minLength => "minLength"
  | .maxLength => "maxLength"
  | .pattern => "pattern"
  | .enum => "enum"

/-- Whether `setField` with `null` under the key gives `clear`, whatever the field was. -/
def resets : Keyword → Bool
  | .minimum | .maximum | .maxLength | .enum => true
  | .minLength | .pattern => false

/-- `k.name` is the name of one of `Kind.schema.fields`. -/
theorem find?_fields_name (k : Keyword) :
    (Kind.schema.fields.find? fun f => sameFold f.1 k.name).map (·.1) = some k.name := by
  cases k <;> decide +kernel

end Keyword

/-- `s` without the field of the keyword. -/
def Schema.clear (s : Schema) : Keyword → Schema
  | .minimum => { s with minimum := none }
  | .maximum => { s with maximum := none }
  | .minLength => { s with minLength := 0 }
  | .maxLength => { s with maxLength := none }
  | .pattern => { s with pattern := "" }
  | .enum => { s with enum := [] }

theorem noteExtension_clear (s : Schema) (k : Keyword) (field : String × Json) :
    (s.clear k).noteExtension field = (s.noteExtension field).clear k := by
  unfold Schema.noteExtension
  split
  · cases k <;> rfl
  · rfl

theorem setRequired_clear (s : Schema) (k : Keyword) (v : Json) :
    (s.clear k).setRequired v = (s.setRequired v).clear k := by
  unfold Schema.setRequired
  split <;> cases k <;> rfl

/-- `clear k` commutes with `setField name` for `name ≠ k.name`. -/
theorem setField_clear_of_ne {name : String} {k : Keyword} (h : name ≠ k.name) (s : Schema)
    (v : Json) : (s.clear k).setField name v = (s.setField name v).clear k := by
  unfold Schema.setField
  -- In each case the two are different fields of the record, or the name is that of the keyword.
  split
  case h_11 => split <;> cases k <;> first | rfl | exact absurd rfl h
  case h_13 => exact setRequired_clear s k v
  all_goals cases k <;> first | rfl | exact absurd rfl h

/-- If `k.resets`, `setField k.name` overwrites what `clear k` changed. -/
theorem setField_clear_self {k : Keyword} (h : k.resets = true) (s : Schema) (v : Json) :
    (s.clear k).setField k.name v = s.setField k.name v := by
  cases k with
  | minimum => rfl
  | maximum => rfl
  | maxLength => rfl
  | enum => cases v <;> rfl
  | minLength => cases h
  | pattern => cases h

theorem setField_null (k : Keyword) (s : Schema) :
    s.setField k.name .null = if k.resets then s.clear k else s := by
  cases k <;> rfl

/-! ### One field, and all fields -/

theorem readField_clear_of_not_sameFold {k : Keyword} {key : String}
    (h : sameFold k.name key = false) (s : Schema) (v : Json) :
    (s.clear k).readField (key, v) = (s.readField (key, v)).clear k := by
  rcases readField_cases key with ⟨f, -, hfold, heq⟩ | ⟨-, heq⟩
  · have hne : f.1 ≠ k.name := by
      intro hname
      rw [hname, h] at hfold
      cases hfold
    rw [heq, heq, noteExtension_clear, setField_clear_of_ne hne]
  · rw [heq, heq, noteExtension_clear]

theorem readField_clear_of_sameFold {k : Keyword} (hk : k.resets = true) {key : String}
    (h : sameFold k.name key = true) (s : Schema) (v : Json) :
    (s.clear k).readField (key, v) = s.readField (key, v) := by
  rw [readField_of_sameFold k.find?_fields_name h, readField_of_sameFold k.find?_fields_name h,
    noteExtension_clear, setField_clear_self hk]

/-- **`clear k` commutes with reading fields** if no key among them has the same fold as `k.name`.
-/
theorem foldl_readField_clear {k : Keyword} {fields : List (String × Json)}
    (h : fields.any (fun f => sameFold k.name f.1) = false) (s : Schema) :
    fields.foldl Schema.readField (s.clear k) = (fields.foldl Schema.readField s).clear k := by
  induction fields generalizing s with
  | nil => rfl
  | cons f rest ih =>
    rw [List.any_cons, Bool.or_eq_false_iff] at h
    rw [List.foldl_cons, List.foldl_cons, readField_clear_of_not_sameFold h.1, ih h.2]

theorem foldl_readField_clear_of_any {k : Keyword} (hk : k.resets = true)
    {fields : List (String × Json)} (h : fields.any (fun f => sameFold k.name f.1) = true)
    (s : Schema) :
    fields.foldl Schema.readField (s.clear k) = fields.foldl Schema.readField s := by
  induction fields generalizing s with
  | nil => cases h
  | cons f rest ih =>
    rw [List.foldl_cons, List.foldl_cons]
    cases hf : sameFold k.name f.1 with
    | true => rw [readField_clear_of_sameFold hk hf]
    | false =>
      rw [List.any_cons, hf, Bool.false_or] at h
      rw [readField_clear_of_not_sameFold hf, ih h]

/-- `s.clear k` if `k.resets` and not `later`, and `s` otherwise. -/
def Schema.withNull (s : Schema) (k : Keyword) (later : Bool) : Schema :=
  if k.resets && !later then s.clear k else s

/-- **`null` under `k.name` is `withNull k`**, where `later` tells whether a key after it has the
same fold as `k.name`. -/
theorem ofFields_null (k : Keyword) (before after : List (String × Json)) :
    Schema.ofFields (before ++ (k.name, .null) :: after) =
      (Schema.ofFields (before ++ after)).withNull k
        (after.any fun f => sameFold k.name f.1) := by
  have hself : sameFold k.name k.name = true := beq_self_eq_true _
  have hplain : k.name.startsWith "x-" = false := by cases k <;> decide +kernel
  have hnull : ∀ s : Schema, s.readField (k.name, .null) = if k.resets then s.clear k else s := by
    intro s
    rw [readField_of_sameFold k.find?_fields_name hself, Schema.noteExtension, hplain,
      if_neg Bool.false_ne_true, setField_null]
  unfold Schema.ofFields Schema.withNull
  rw [List.foldl_append, List.foldl_append, List.foldl_cons, hnull]
  cases hk : k.resets with
  | false => rfl
  | true =>
    cases hany : after.any fun f => sameFold k.name f.1 with
    | true => exact foldl_readField_clear_of_any hk hany _
    | false => exact foldl_readField_clear hany _

/-! ### Decoded schemas -/

/-- `Schema.withNull` on schemas, and the identity on references. -/
def SchemaRef.withNull (k : Keyword) (later : Bool) : SchemaRef → SchemaRef
  | .reference target => .reference target
  | .schema s => .schema (s.withNull k later)

theorem fieldsConform_append (viaFloat : Bool) (view : String → Option Shape)
    (fields more : List (String × Json)) :
    fieldsConform viaFloat view (fields ++ more) =
      (fieldsConform viaFloat view fields && fieldsConform viaFloat view more) := by
  induction fields with
  | nil => rfl
  | cons f rest ih => rw [List.cons_append, fieldsConform, fieldsConform, ih, Bool.and_assoc]

/-- `null` conforms to every shape. -/
theorem fieldsConform_null (viaFloat : Bool) (view : String → Option Shape) (name : String)
    (before after : List (String × Json)) :
    fieldsConform viaFloat view (before ++ (name, .null) :: after) =
      fieldsConform viaFloat view (before ++ after) := by
  have hnull : fieldsConform viaFloat view ((name, .null) :: after) =
      fieldsConform viaFloat view after := by
    rw [fieldsConform]
    cases view name with
    | none => rfl
    | some shape =>
      dsimp only
      rw [conforms, Bool.true_and]
  rw [fieldsConform_append, fieldsConform_append, hnull]

theorem target?_null {name : String} (h : name ≠ referenceName)
    (before after : List (String × Json)) :
    target? (before ++ (name, .null) :: after) = target? (before ++ after) := by
  have hname : (name == referenceName) = false := by simpa using h
  have hfind : (before ++ (name, Json.null) :: after).find? (fun f => f.1 == referenceName) =
      (before ++ after).find? fun f => f.1 == referenceName := by
    rw [List.find?_append, List.find?_append, List.find?_cons_of_neg (by simp [hname])]
  unfold target?
  rw [hfind]

theorem ofJson?_null (k : Keyword) (before after : List (String × Json)) :
    SchemaRef.ofJson? (.object (before ++ (k.name, .null) :: after)) =
      (SchemaRef.ofJson? (.object (before ++ after))).map
        (SchemaRef.withNull k (after.any fun f => sameFold k.name f.1)) := by
  have hname : k.name ≠ referenceName := by cases k <;> decide
  have hconforms : conforms false (.linked .schema) (.object (before ++ (k.name, .null) :: after)) =
      conforms false (.linked .schema) (.object (before ++ after)) := by
    rw [conforms, conforms, target?_null hname, fieldsConform_null, fieldsConform_null]
  unfold SchemaRef.ofJson?
  dsimp only
  rw [hconforms, target?_null hname, ofFields_null]
  split_ifs
  · cases target? (before ++ after) <;> rfl
  · rfl

/-- The two nodes are mappings with the same entries, but for one with the given key and a node of
value `null`, which only the first has. -/
structure NullAt (anchors : Anchors) (key : String) (node node' : Node) : Prop where
  isMapping : ∃ children, node.resolve? anchors = some (.mapping children)
  isMapping' : ∃ children, node'.resolve? anchors = some (.mapping children)
  entries : ∃ before after null,
    node.entries anchors = before ++ ⟨key, null⟩ :: after ∧
    node'.entries anchors = before ++ after ∧ null.value anchors = .ok .null

/-- The schemas differ by `withNull k later`, and `k.name` is a field of the first raw value only,
and both have the same other fields. -/
structure DecodedNull (k : Keyword) (later : Bool) (d d' : SchemaRef × Value) : Prop where
  ref : d.1 = d'.1.withNull k later
  named : (d.2.field? k.name).isSome = true
  unnamed : (d'.2.field? k.name).isSome = false
  others : ∀ name ≠ k.name, (d.2.field? name).isSome = (d'.2.field? name).isSome

section Decoded

variable {anchors : Anchors} {k : Keyword} {fields more : List (String × Value)}

theorem not_mem_of_nodup_null {α : Type} {name : String} {v : α} {fs gs : List (String × α)}
    (h : ((fs ++ (name, v) :: gs).map (·.1)).Nodup) : name ∉ (fs ++ gs).map (·.1) := by
  rw [List.map_append, List.map_cons, List.nodup_middle, ← List.map_append] at h
  exact (List.nodup_cons.1 h).1

/-- If the keys are distinct, `sortFields` puts `(k.name, .null)` at one place between the sorted
others, and `k.name` has the fold of a key after it just if it has that of a greater key. -/
theorem sortFields_null {forms others : List (String × Json)}
    (h : ((forms ++ (k.name, .null) :: others).map (·.1)).Nodup) :
    ∃ before after, sortFields (forms ++ others) = before ++ after ∧
      sortFields (forms ++ (k.name, .null) :: others) = before ++ (k.name, .null) :: after ∧
      after.any (fun f => sameFold k.name f.1) =
        (forms ++ others).any fun f => decide (k.name < f.1) && sameFold k.name f.1 := by
  have hsort : sortFields (forms ++ (k.name, .null) :: others) =
      insertField (k.name, .null) (sortFields (forms ++ others)) :=
    sortFields_eq_of_perm List.perm_middle h
  obtain ⟨before, after, hsplit, hinsert, hbefore, hafter⟩ :=
    insertField_eq_append (k.name, Json.null) (pairwise_sortFields (forms ++ others))
  refine ⟨before, after, hsplit, hsort.trans hinsert, ?_⟩
  have hmem : ∀ f, f ∈ forms ++ others ↔ f ∈ before ++ after := by
    intro f
    rw [← hsplit]
    exact (perm_sortFields _).mem_iff.symm
  have hnew := not_mem_of_nodup_null h
  rw [Bool.eq_iff_iff, List.any_eq_true, List.any_eq_true]
  constructor
  · rintro ⟨f, hf, hfold⟩
    have hf' := (hmem f).2 (List.mem_append_right before hf)
    have hne : f.1 ≠ k.name := fun heq => hnew (heq ▸ List.mem_map_of_mem hf')
    have hlt : k.name < f.1 := by
      rw [← String.not_le]
      exact fun hle => hne (String.le_antisymm hle (hafter f hf))
    exact ⟨f, hf', by simp [hlt, hfold]⟩
  · rintro ⟨f, hf, hfold⟩
    obtain ⟨hlt, hfold⟩ := Bool.and_eq_true_iff.1 hfold
    rcases List.mem_append.1 ((hmem f).1 hf) with hf | hf
    · exact absurd (hbefore f hf) (String.lt_asymm (of_decide_eq_true hlt))
    · exact ⟨f, hf, hfold⟩

/-- Whether `k.name` has the same fold as a greater key. -/
def spelledAfter (k : Keyword) (keys : List String) : Bool :=
  keys.any fun key => decide (k.name < key) && sameFold k.name key

theorem decodeFields_null (h : ((fields ++ (k.name, .null) :: more).map (·.1)).Nodup) :
    (Value.map (fields ++ (k.name, .null) :: more)).toJson?.bind SchemaRef.ofJson? =
      ((Value.map (fields ++ more)).toJson?.bind SchemaRef.ofJson?).map
        (SchemaRef.withNull k (spelledAfter k ((fields ++ more).map (·.1)))) := by
  have hnull : Value.toFields? ((k.name, .null) :: more) =
      (Value.toFields? more).map ((k.name, .null) :: ·) := by
    rw [Value.toFields?, Value.toJson?]
    cases Value.toFields? more <;> rfl
  rw [Value.toJson?, Value.toJson?, Value.toFields?_append, Value.toFields?_append, hnull]
  cases hforms : Value.toFields? fields with
  | none => rfl
  | some forms =>
    cases hothers : Value.toFields? more with
    | none => rfl
    | some others =>
      have hnames : (forms ++ others).map (·.1) = (fields ++ more).map (·.1) := by
        rw [List.map_append, List.map_append, Value.map_fst_toFields? hforms,
          Value.map_fst_toFields? hothers]
      have hnodup : ((forms ++ (k.name, Json.null) :: others).map (·.1)).Nodup := by
        rw [List.map_append, List.map_cons] at h ⊢
        rwa [Value.map_fst_toFields? hforms, Value.map_fst_toFields? hothers]
      obtain ⟨before, after, hsort, hsortNull, hlater⟩ := sortFields_null hnodup
      have hspelled : after.any (fun f => sameFold k.name f.1) =
          spelledAfter k ((fields ++ more).map (·.1)) := by
        rw [hlater, ← hnames, spelledAfter, List.any_map]
        rfl
      show SchemaRef.ofJson? (.object (sortFields (forms ++ (k.name, .null) :: others))) =
        (SchemaRef.ofJson? (.object (sortFields (forms ++ others)))).map _
      rw [hsortNull, hsort, ofJson?_null, hspelled]

/-- **`decodeSchema` respects `NullAt`**: it fails with the same error on both nodes, or gives
results that are `DecodedNull`. -/
theorem decodeSchema_null {node node' : Node} (h : NullAt anchors k.name node node') :
    Matched (Option.Rel (DecodedNull k (spelledAfter k ((node'.entries anchors).map (·.key)))))
      (decodeSchema anchors node) (decodeSchema anchors node') := by
  obtain ⟨⟨children, hnode⟩, ⟨children', hnode'⟩, before, after, null, hentries, hentries',
    hnull⟩ := h
  have hvalue : Node.valueWithin anchors maxDepth null = .ok .null :=
    Node.valueWithin_of_value_null hnull 511
  have hnodup := Node.nodup_map_key_entries anchors node
  rw [hentries] at hnodup
  rw [decodeSchema_of_resolve? hnode, decodeSchema_of_resolve? hnode', hentries, hentries',
    Node.fieldsOf_append, Node.fieldsOf_append, Node.fieldsOf_cons, hvalue]
  cases hfields : Node.fieldsOf anchors maxDepth before with
  | error e => exact .error _
  | ok fields =>
    cases hmore : Node.fieldsOf anchors maxDepth after with
    | error e => exact .error _
    | ok more =>
      have hkeys : (fields ++ more).map (·.1) = (before ++ after).map (·.key) := by
        rw [List.map_append, List.map_append, Node.map_fst_fieldsOf hfields,
          Node.map_fst_fieldsOf hmore]
      have hnames : ((fields ++ (k.name, Value.null) :: more).map (·.1)).Nodup := by
        rw [List.map_append, List.map_cons] at hnodup ⊢
        rwa [Node.map_fst_fieldsOf hfields, Node.map_fst_fieldsOf hmore]
      have hdecode := decodeFields_null hnames
      dsimp only [bind, Except.bind, pure, Except.pure, Except.mapError]
      rw [hdecode, ← hkeys]
      cases (Value.map (fields ++ more)).toJson?.bind SchemaRef.ofJson? with
      | none => exact .error _
      | some ref =>
        refine .ok (.some ⟨rfl, ?_, ?_, fun name hname => ?_⟩)
        · rw [Value.isSome_field?_map]
          simp
        · rw [← Bool.not_eq_true, Value.isSome_field?_map]
          exact not_mem_of_nodup_null hnames
        · rw [Bool.eq_iff_iff, Value.isSome_field?_map, Value.isSome_field?_map]
          simp [hname]

/-- If no key of an entry has the same fold as `k.name`, the schema decoded is its own `clear k`. -/
theorem clear_eq_self {node : Node} {s : Schema} {raw : Value}
    (h : decodeSchema anchors node = .ok (some (.schema s, raw)))
    (hkeys : (node.entries anchors).any (fun e => sameFold k.name e.key) = false) :
    s.clear k = s := by
  obtain ⟨fields, forms, hfields, -, hforms, rfl⟩ := decodeSchema_eq_schema h
  have hnone : (sortFields forms).any (fun f => sameFold k.name f.1) = false := by
    have hnames : forms.map (·.1) = (node.entries anchors).map (·.key) := by
      rw [Value.map_fst_toFields? hforms, Node.map_fst_fieldsOf hfields]
    have hany : ∀ key ∈ (node.entries anchors).map (·.key), sameFold k.name key = false := by
      simpa using hkeys
    rw [← hnames] at hany
    simp only [List.any_eq_false, Bool.not_eq_true]
    intro f hf
    exact hany f.1 (List.mem_map_of_mem ((perm_sortFields forms).mem_iff.1 hf))
  have hstart : ({} : Schema).clear k = {} := by cases k <;> rfl
  have hfold := foldl_readField_clear hnone {}
  rw [hstart] at hfold
  exact hfold.symm

end Decoded

end SchemaPress.OpenApi

namespace SchemaPress

open OpenApi Text

/-! ### Properties -/

/-- `c` has no constraint of the given keyword. -/
def Constraints.Lacks (c : Constraints) : Keyword → Prop
  | .minimum => c.minimum = none
  | .maximum => c.maximum = none
  | .minLength => c.minLength = none
  | .maxLength => c.maxLength = none
  | .pattern => c.pattern = ""
  | .enum => c.enum = none

/-- `c` with `null` under the keyword: `minLength` becomes `0` if there was none, `pattern` stays,
and any other constraint becomes `none` unless `later`. -/
def Constraints.withNull (c : Constraints) (k : Keyword) (later : Bool) : Constraints :=
  match k with
  | .minimum => if later then c else { c with minimum := none }
  | .maximum => if later then c else { c with maximum := none }
  | .minLength => { c with minLength := some (c.minLength.getD 0) }
  | .maxLength => if later then c else { c with maxLength := none }
  | .pattern => c
  | .enum => if later then c else { c with enum := none }

/-- The condition under which `c.withNull k later = c`. -/
def Constraints.KeepsNull (c : Constraints) (k : Keyword) (later : Bool) : Prop :=
  match k with
  | .pattern => True
  | .minLength => ¬ c.Lacks .minLength
  | k => later = true ∨ c.Lacks k

theorem Constraints.withNull_eq_self {c : Constraints} {k : Keyword} {later : Bool}
    (h : c.KeepsNull k later) : c.withNull k later = c := by
  obtain ⟨⟩ := c
  cases k with
  | pattern => rfl
  | minLength =>
    obtain ⟨n, hn⟩ := Option.ne_none_iff_exists'.1 h
    dsimp only at hn
    rw [hn]
    rfl
  | _ =>
    rcases h with rfl | h
    · rfl
    · cases h
      cases later <;> rfl

/-- The properties have the same type, requirement and constraints, up to `raw`, and so the same
`Yup.derive` and `Yup.chain`. -/
structure Property.SameRules (p p' : Property) : Prop where
  type : p.type = p'.type
  required : p.required = p'.required
  minimum : p.constraints.minimum = p'.constraints.minimum
  maximum : p.constraints.maximum = p'.constraints.maximum
  minLength : p.constraints.minLength = p'.constraints.minLength
  maxLength : p.constraints.maxLength = p'.constraints.maxLength
  pattern : p.constraints.pattern = p'.constraints.pattern
  enum : p.constraints.enum = p'.constraints.enum
  rules : Yup.derive p = Yup.derive p'
  chain : Yup.chain (Yup.derive p) = Yup.chain (Yup.derive p')
  entry : ∀ style, Yup.entry style p = Yup.entry style p'

/-- `derive` and `chain` do not depend on `raw`. -/
theorem Property.sameRules_raw (p : Property) (raw : Value) :
    Property.SameRules { p with constraints := { p.constraints with raw } } p :=
  ⟨rfl, rfl, rfl, rfl, rfl, rfl, rfl, rfl, rfl, rfl, fun _ => rfl⟩

theorem Property.SameRules.lacks_iff {p p' : Property} (h : p.SameRules p') (k : Keyword) :
    p.constraints.Lacks k ↔ p'.constraints.Lacks k := by
  cases k <;>
    simp only [Constraints.Lacks, h.minimum, h.maximum, h.minLength, h.maxLength, h.pattern, h.enum]

namespace OpenApi

variable {anchors : Anchors} {k : Keyword} {later : Bool}

/-- `Schema.constraints` takes `Schema.withNull` to `Constraints.withNull`, up to `raw`. -/
theorem constraints_withNull {d d' : SchemaRef × Value} (h : DecodedNull k later d d')
    (s : Schema) :
    (s.withNull k later).constraints d.2 =
      { (s.constraints d'.2).withNull k later with raw := d.2 } := by
  have hothers := h.others "minLength"
  have hnamed := h.named
  have hunnamed := h.unnamed
  unfold Schema.withNull Schema.constraints Constraints.withNull
  cases k with
  | minLength =>
    rw [show Keyword.minLength.name = "minLength" from rfl] at hnamed hunnamed
    simp only [Keyword.resets, hnamed, hunnamed]
    by_cases hzero : s.minLength = 0 <;> simp [hzero]
  | _ =>
    rw [hothers (by decide)]
    cases later <;> rfl

/-- If `s.clear k = s` and `raw` has no field `k.name`, the constraints of `s` lack `k`. -/
theorem constraints_lacks {s : Schema} {raw : Value} (h : s.clear k = s)
    (hraw : (raw.field? k.name).isSome = false) : (s.constraints raw).Lacks k := by
  cases k with
  | minimum => exact (congrArg Schema.minimum h).symm
  | maximum => exact (congrArg Schema.maximum h).symm
  | maxLength => exact (congrArg Schema.maxLength h).symm
  | pattern => exact (congrArg Schema.pattern h).symm
  | minLength =>
    have hzero : s.minLength = 0 := (congrArg Schema.minLength h).symm
    have hname : (raw.field? "minLength").isSome = false := hraw
    simp [Constraints.Lacks, Schema.constraints, hzero, hname]
  | enum =>
    have hnil : s.enum = [] := (congrArg Schema.enum h).symm
    simp [Constraints.Lacks, Schema.constraints, hnil]

/-- `p` is `p'` with `null` under `k.name`, where `keys` are the keys of the schema of `p'`. -/
structure ComparesNull (k : Keyword) (keys : List String) (p p' : Property) : Prop where
  /-- The properties are equal up to `withNull` and `raw`. -/
  eq : p = { p' with constraints :=
    { p'.constraints.withNull k (spelledAfter k keys) with raw := p.constraints.raw } }
  /-- They have the same rules if and only if `withNull` changes nothing. -/
  sameRules_iff : p.SameRules p' ↔ p'.constraints.KeepsNull k (spelledAfter k keys)
  /-- If no key has the same fold as `k.name`, this is so for all keywords but `minLength`. -/
  unspelled : keys.any (sameFold k.name) = false → (p.SameRules p' ↔ k ≠ .minLength)

/-- Properties that are equal up to `withNull` and `raw` have the same rules if and only if
`KeepsNull`. -/
theorem sameRules_withNull_iff {p p' : Property}
    (h : p = { p' with constraints :=
      { p'.constraints.withNull k later with raw := p.constraints.raw } }) :
    p.SameRules p' ↔ p'.constraints.KeepsNull k later := by
  constructor
  · intro hsame
    have hlacks := hsame.lacks_iff k
    rw [h] at hlacks
    cases k with
    | pattern => trivial
    | minLength =>
      intro hnone
      cases hlacks.2 hnone
    | _ =>
      cases later with
      | true => exact .inl rfl
      | false => exact .inr (hlacks.1 rfl)
  · intro hkeeps
    rw [Constraints.withNull_eq_self hkeeps] at h
    rw [h]
    exact p'.sameRules_raw _

theorem comparesNull_of_lacks {keys : List String} {p p' : Property}
    (h : p = { p' with constraints :=
      { p'.constraints.withNull k (spelledAfter k keys) with raw := p.constraints.raw } })
    (hlacks : keys.any (sameFold k.name) = false → p'.constraints.Lacks k) :
    ComparesNull k keys p p' := by
  refine ⟨h, sameRules_withNull_iff h, fun hkeys => ?_⟩
  have hlack := hlacks hkeys
  rw [sameRules_withNull_iff h]
  cases k <;> simp [Constraints.KeepsNull, hlack]

/-- **`null` under the keyword of a constraint.**  For nodes with `NullAt`, `readProperty` fails
with the same error, gives the same skip, or gives two properties with `ComparesNull`.  In
particular, if no other key has the same fold as the keyword, the properties have the same rules if
and only if the keyword is not `minLength`. -/
theorem readProperty_null (options : ReaderOptions) (anchors : Anchors) (schema : String)
    (parent : Metadata) (key : String) (k : Keyword) {node node' : Node}
    (h : NullAt anchors k.name node node') :
    Matched (Sum.LiftRel (ComparesNull k ((node'.entries anchors).map (·.key))) Eq)
      (readProperty options anchors schema parent ⟨key, node⟩)
      (readProperty options anchors schema parent ⟨key, node'⟩) := by
  have hdecode := decodeSchema_null h
  unfold readProperty
  dsimp only
  generalize decodeSchema anchors node = r at hdecode ⊢
  cases hnode' : decodeSchema anchors node' with
  | error cause =>
    rw [hnode'] at hdecode
    cases hdecode
    exact .error cause
  | ok decoded =>
    rw [hnode'] at hdecode
    cases hdecode with
    | ok hrel =>
      cases hrel with
      | none => exact .ok (.inr rfl)
      | @some d d' hd =>
        obtain ⟨ref, raw⟩ := d
        obtain ⟨ref', raw'⟩ := d'
        obtain rfl : ref = ref'.withNull k _ := hd.ref
        cases ref' with
        | reference target => exact .ok (.inr rfl)
        | schema s =>
          dsimp only [bind, Except.bind, SchemaRef.withNull]
          have htypes : ∀ later, (s.withNull k later).properTypes = s.properTypes := by
            intro later
            unfold Schema.withNull
            split_ifs
            · cases k <;> rfl
            · rfl
          rw [htypes]
          split
          · exact .ok (.inr rfl)
          · refine .ok (.inl (comparesNull_of_lacks ?_ fun hkeys => ?_))
            · rw [constraints_withNull hd s]
            · refine constraints_lacks (clear_eq_self hnode' ?_) hd.unnamed
              rwa [List.any_map] at hkeys

/-- A schema of type `string` with the given further fields. -/
def textSchema (fields : List (String × Node)) : Node :=
  .mapping (.ofText "type" :: .ofText "string" :: fields.flatMap fun f => [.ofText f.1, f.2])

/-- The plain scalar `null`. -/
def nullNode : Node :=
  .scalar ⟨.null, "null", 0⟩

theorem nullAt_textSchema (k : Keyword) :
    NullAt #[] k.name (textSchema [(k.name, nullNode)]) (textSchema []) where
  isMapping := ⟨_, rfl⟩
  isMapping' := ⟨_, rfl⟩
  entries := ⟨[⟨"type", .ofText "string"⟩], [], nullNode, by cases k <;> rfl, rfl, rfl⟩

/-- The chain of the property that is read from `node`. -/
def chainRead (node : Node) : Option String :=
  match readProperty {} #[] "A" {} ⟨"x", node⟩ with
  | .ok (.inl p) => some (Yup.chain (Yup.derive p))
  | _ => none

theorem chainRead_textSchema : chainRead (textSchema []) = some ".string().required()" := by
  decide +kernel

theorem exists_of_chainRead {node : Node} {text : String} (h : chainRead node = some text) :
    ∃ p, readProperty {} #[] "A" {} ⟨"x", node⟩ = .ok (.inl p) ∧
      Yup.chain (Yup.derive p) = text := by
  unfold chainRead at h
  split at h
  · exact ⟨_, ‹_›, Option.some.inj h⟩
  · cases h

theorem readProperty_null_maxLength :
    NullAt #[] "maxLength" (textSchema [("maxLength", nullNode)]) (textSchema []) ∧
      ∃ p p', readProperty {} #[] "A" {} ⟨"x", textSchema [("maxLength", nullNode)]⟩ =
          .ok (.inl p) ∧
        readProperty {} #[] "A" {} ⟨"x", textSchema []⟩ = .ok (.inl p') ∧ p.SameRules p' := by
  have hnull := nullAt_textSchema .maxLength
  refine ⟨hnull, ?_⟩
  obtain ⟨p', hp', -⟩ := exists_of_chainRead chainRead_textSchema
  have hmatched := readProperty_null {} #[] "A" {} "x" .maxLength hnull
  rw [hp'] at hmatched
  generalize hp : readProperty {} #[] "A" {} ⟨"x", textSchema [("maxLength", nullNode)]⟩ = r
  rw [show Keyword.maxLength.name = "maxLength" from rfl, hp] at hmatched
  cases hmatched with
  | ok hkept =>
    cases hkept with
    | inl hcompares =>
      exact ⟨_, p', rfl, hp', (hcompares.unspelled (by decide +kernel)).2 (by decide)⟩

/-- With `minLength: null` the chain has `min(0)`, without it there is no `min`. -/
theorem readProperty_null_minLength :
    NullAt #[] "minLength" (textSchema [("minLength", nullNode)]) (textSchema []) ∧
      chainRead (textSchema [("minLength", nullNode)]) = some ".string().min(0).required()" ∧
      chainRead (textSchema []) = some ".string().required()" :=
  ⟨nullAt_textSchema .minLength, by decide +kernel, chainRead_textSchema⟩

-- Another spelling of the keyword, which is read in front of the `null`.
example :
    let five : Node := .scalar ⟨.int, "5", 0⟩
    chainRead (textSchema [("MAXLENGTH", five)]) = some ".string().max(5).required()" ∧
      chainRead (textSchema [("MAXLENGTH", five), ("maxLength", nullNode)]) =
        some ".string().required()" := by
  decide +kernel

end OpenApi

end SchemaPress
