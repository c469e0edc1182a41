import SchemaPress.Proofs.OpenApi.KeyOrder
import SchemaPress.Proofs.OpenApi.SchemaFields
import SchemaPress.Proofs.OpenApi.SkipLevel

/-!
# How keys are spelled

A schema is looked at in two ways.  It is decoded field by field, where the case of a name does not
count and of several spellings the last one in the order of keys does; and its properties are taken,
in the order of the document, from the mapping under the key `properties` as it is spelled here.

The two agree if the schema spells the name in no other way (`ViewsCompared.agree`).  Otherwise the
decoded schema has the properties under the last spelling, but only those under `properties` are
kept or skipped: the others are lost without notice.  In the same way a least length of zero counts
as given only under the key `minLength` itself (`LengthsCompared`).
-/

namespace SchemaPress.OpenApi

open Text

variable {options : ReaderOptions} {anchors : Anchors}

/-! ### What a schema is decoded to -/

/-- The names of the properties in the value of the field `properties`, without `originName`. -/
def propertyNames : Json → List String
  | .object fields => (fields.map (·.1)).filter (· != originName)
  | _ => []

/-- The names of the properties of a schema after one more field. -/
def nextProperties (old : List String) (field : String × Json) : List String :=
  if sameFold "properties" field.1 then propertyNames field.2 else old

/-- The least length that a schema states after one more field; `null` states none. -/
def nextMinLength (old : Option Nat) (field : String × Json) : Option Nat :=
  if sameFold "minLength" field.1 then (jsonCount? field.2).or old else old

/-- The greatest length that a schema states after one more field; `null` takes it back. -/
def nextMaxLength (old : Option Nat) (field : String × Json) : Option Nat :=
  if sameFold "maxLength" field.1 then jsonCount? field.2 else old

/-- The names of the properties of a schema with the given fields. -/
def declaredProperties (fields : List (String × Json)) : List String :=
  fields.foldl nextProperties []

/-- The least length that a schema with the given fields states. -/
def declaredMinLength (fields : List (String × Json)) : Option Nat :=
  fields.foldl nextMinLength none

/-- The greatest length that a schema with the given fields states. -/
def declaredMaxLength (fields : List (String × Json)) : Option Nat :=
  fields.foldl nextMaxLength none

/-- The fields of the JSON form that `decodeSchema` decodes. -/
def decodedFields (anchors : Anchors) (node : Node) : List (String × Json) :=
  match (node.value anchors).toOption.bind Value.toJson? with
  | some (.object fields) => fields
  | _ => []

/-- `decodeSchema` reads a schema from `decodedFields`: the JSON forms of the entries, sorted by
key. -/
theorem decodedFields_of_decodeSchema {node : Node} {s : Schema} {raw : Value}
    (h : decodeSchema anchors node = .ok (some (.schema s, raw))) :
    s = .ofFields (decodedFields anchors node) ∧
    ((decodedFields anchors node).map (·.1)).Perm ((node.entries anchors).map (·.key)) ∧
    (decodedFields anchors node).Pairwise (fun f g => f.1 ≤ g.1) ∧
    (∀ name form, (name, form) ∈ decodedFields anchors node →
      ∃ e ∈ node.entries anchors, e.key = name ∧
        ∃ v, Node.valueWithin anchors maxDepth e.node = .ok v ∧ v.toJson? = some form) ∧
    ∀ name, (raw.field? name).isSome = true ↔ name ∈ (node.entries anchors).map (·.key) := by
  obtain ⟨children, hnode⟩ := exists_resolve?_of_decodeSchema h
  obtain ⟨fields, forms, hfields, rfl, hforms, rfl⟩ := decodeSchema_eq_schema h
  have hdecoded : decodedFields anchors node = sortFields forms := by
    unfold decodedFields
    rw [Node.value, Node.valueWithin_of_resolve? hnode, hfields]
    simp only [Except.map, Except.toOption, Option.bind_some, Value.toJson?, hforms,
      Option.map_some]
  rw [hdecoded, ← Node.map_fst_fieldsOf hfields]
  refine ⟨rfl, ?_, pairwise_sortFields forms, ?_, fun name => Value.isSome_field?_map⟩
  · rw [← Value.map_fst_toFields? hforms]
    exact (perm_sortFields forms).map _
  · intro name form hmem
    obtain ⟨v, hv, hform⟩ := (Value.mem_toFields? hforms).1 ((perm_sortFields forms).mem_iff.1 hmem)
    obtain ⟨e, he, hkey, hvalue⟩ := Node.exists_entry_of_mem_fieldsOf hfields hv
    exact ⟨e, he, hkey, v, hvalue, hform⟩

/-! ### Properties -/

/-- The entries of the node under `key`. -/
def entriesUnder (anchors : Anchors) (node : Node) (key : String) : List Entry :=
  match node.lookup? anchors key with
  | some under => under.entries anchors
  | none => []

/-- `key` is the last of the `keys`, in their order as texts, that spells `name` up to case. -/
structure IsLastSpelling (keys : List String) (name key : String) : Prop where
  mem : key ∈ keys
  spells : sameFold name key = true
  last : ∀ other ∈ keys, sameFold name other = true → other ≤ key

theorem entriesUnder_of_mem {node : Node} {e : Entry} (he : e ∈ node.entries anchors) :
    entriesUnder anchors node e.key = e.node.entries anchors := by
  have hfind : (node.entries anchors).find? (fun e' => e'.key == e.key) = some e :=
    (Node.find?_eq_some_iff (Node.nodup_map_key_entries anchors node)).2 ⟨he, rfl⟩
  unfold entriesUnder Node.lookup?
  rw [hfind]
  dsimp only
  cases hnode : e.node.resolve? anchors with
  | none => rw [Node.entries, hnode]
  | some m => exact Node.entries_of_resolve? hnode

theorem entriesUnder_of_not_mem {node : Node} {key : String}
    (h : key ∉ (node.entries anchors).map (·.key)) : entriesUnder anchors node key = [] := by
  have hfind : (node.entries anchors).find? (fun e => e.key == key) = none := by
    rw [List.find?_eq_none]
    intro e he hkey
    exact h (List.mem_map.2 ⟨e, he, beq_iff_eq.1 hkey⟩)
  unfold entriesUnder Node.lookup?
  rw [hfind]

/-- `propertyNames` of a value are its field names without `originName`. -/
theorem mem_propertyNames_iff {v : Value} {form : Json} (h : v.toJson? = some form)
    (name : String) : name ∈ propertyNames form ↔ name ∈ v.fieldNames ∧ name ≠ originName := by
  cases v with
  | map fields =>
    rw [Value.toJson?] at h
    obtain ⟨forms, hforms, rfl⟩ := Option.map_eq_some_iff.1 h
    have hmem : name ∈ (sortFields forms).map (·.1) ↔ name ∈ fields.map (·.1) := by
      rw [((perm_sortFields forms).map Prod.fst).mem_iff, Value.map_fst_toFields? hforms]
    rw [propertyNames, List.mem_filter, bne_iff_ne, hmem]
    rfl
  | null | bool | int | text =>
    cases h
    simp [propertyNames, Value.fieldNames]
  | float | time | list =>
    rw [Value.toJson?] at h
    obtain ⟨_, -, rfl⟩ := Option.map_eq_some_iff.1 h
    simp [propertyNames, Value.fieldNames]

theorem foldl_nextProperties_of_unspelled {fields : List (String × Json)}
    (h : ∀ f ∈ fields, sameFold "properties" f.1 = false) (old : List String) :
    fields.foldl nextProperties old = old := by
  induction fields with
  | nil => rfl
  | cons f rest ih =>
    obtain ⟨hf, hrest⟩ := List.forall_mem_cons.1 h
    rw [List.foldl_cons, nextProperties, hf, if_neg Bool.false_ne_true, ih hrest]

/-- **Of several spellings of `properties`, the last one counts.** -/
theorem declaredProperties_of_isLastSpelling {fields : List (String × Json)}
    (hsorted : fields.Pairwise fun f g => f.1 ≤ g.1) (hnodup : (fields.map (·.1)).Nodup)
    {key : String} {form : Json} (hmem : (key, form) ∈ fields)
    (hlast : IsLastSpelling (fields.map (·.1)) "properties" key) :
    declaredProperties fields = propertyNames form := by
  obtain ⟨before, after, rfl⟩ := List.append_of_mem hmem
  have hafter : ∀ f ∈ after, sameFold "properties" f.1 = false := by
    intro f hf
    rw [Bool.eq_false_iff]
    intro hspells
    have hle : f.1 ≤ key := hlast.last f.1 (List.mem_map_of_mem (by simp [hf])) hspells
    have hge : key ≤ f.1 :=
      (List.pairwise_cons.1 (List.pairwise_append.1 hsorted).2.1).1 f hf
    have hfresh : key ∉ after.map (·.1) := by
      rw [List.map_append, List.map_cons] at hnodup
      exact (List.nodup_cons.1 hnodup.of_append_right).1
    exact hfresh (String.le_antisymm hge hle ▸ List.mem_map_of_mem hf)
  rw [declaredProperties, List.foldl_append, List.foldl_cons, nextProperties, hlast.spells,
    if_pos rfl, foldl_nextProperties_of_unspelled hafter]

section Decoded

variable {node : Node} {s : Schema} {raw : Value}
  (h : decodeSchema anchors node = .ok (some (.schema s, raw)))

include h

theorem declaredProperties_of_unspelled
    (hkeys : ∀ key ∈ (node.entries anchors).map (·.key), sameFold "properties" key = false) :
    declaredProperties (decodedFields anchors node) = [] := by
  obtain ⟨-, hperm, -⟩ := decodedFields_of_decodeSchema h
  exact foldl_nextProperties_of_unspelled
    (fun f hf => hkeys f.1 (hperm.mem_iff.1 (List.mem_map_of_mem hf))) []

/-- **`declaredProperties` are the entries under the last spelling of `properties`**, without
`originName`. -/
theorem mem_declaredProperties_iff {key : String}
    (hlast : IsLastSpelling ((node.entries anchors).map (·.key)) "properties" key) (name : String) :
    name ∈ declaredProperties (decodedFields anchors node) ↔
      name ∈ (entriesUnder anchors node key).map (·.key) ∧ name ≠ originName := by
  obtain ⟨-, hperm, hsorted, hforms, -⟩ := decodedFields_of_decodeSchema h
  have hnodup := hperm.nodup_iff.2 (Node.nodup_map_key_entries anchors node)
  obtain ⟨⟨_, form⟩, hmem, rfl⟩ := List.mem_map.1 (hperm.mem_iff.2 hlast.mem)
  obtain ⟨e, he, hkey, v, hvalue, hform⟩ := hforms _ form hmem
  have hlast' : IsLastSpelling ((decodedFields anchors node).map (·.1)) "properties" e.key :=
    hkey ▸ ⟨hperm.mem_iff.2 hlast.mem, hlast.spells,
      fun other hother => hlast.last other (hperm.mem_iff.1 hother)⟩
  dsimp only at hkey ⊢
  rw [← hkey] at hmem ⊢
  rw [declaredProperties_of_isLastSpelling hsorted hnodup hmem hlast',
    mem_propertyNames_iff hform, Node.fieldNames_of_valueWithin hvalue, entriesUnder_of_mem he]

end Decoded

/-! ### Lengths -/

theorem setRequired_lengths (s : Schema) (v : Json) :
    (s.setRequired v).minLength = s.minLength ∧ (s.setRequired v).maxLength = s.maxLength := by
  unfold Schema.setRequired
  split <;> exact ⟨rfl, rfl⟩

theorem setField_lengths {name : String} (hmin : name ≠ "minLength") (hmax : name ≠ "maxLength")
    (s : Schema) (v : Json) :
    (s.setField name v).minLength = s.minLength ∧ (s.setField name v).maxLength = s.maxLength := by
  unfold Schema.setField
  split
  case h_9 => exact absurd rfl hmin
  case h_10 => exact absurd rfl hmax
  case h_11 => split <;> exact ⟨rfl, rfl⟩
  case h_13 => exact setRequired_lengths s v
  all_goals exact ⟨rfl, rfl⟩

theorem noteExtension_lengths (s : Schema) (field : String × Json) :
    (s.noteExtension field).minLength = s.minLength ∧
      (s.noteExtension field).maxLength = s.maxLength := by
  unfold Schema.noteExtension
  split_ifs <;> exact ⟨rfl, rfl⟩

/-- No key spells two names that differ in more than case. -/
theorem sameFold_eq_false_of_sameFold {name other key : String} (h : sameFold name key = true)
    (hne : sameFold name other = false) : sameFold other key = false := by
  have hfold : fold name = fold key := beq_iff_eq.1 h
  unfold sameFold at hne ⊢
  rw [← hfold, Bool.beq_comm]
  exact hne

/-- `readField` on `minLength` and `maxLength`. -/
theorem readField_lengths (s : Schema) (field : String × Json) :
    (s.readField field).minLength =
      (if sameFold "minLength" field.1 then (jsonCount? field.2).getD s.minLength
        else s.minLength) ∧
    (s.readField field).maxLength =
      if sameFold "maxLength" field.1 then jsonCount? field.2 else s.maxLength := by
  obtain ⟨key, v⟩ := field
  obtain ⟨hnoteMin, hnoteMax⟩ := noteExtension_lengths s (key, v)
  dsimp only
  cases hmin : sameFold "minLength" key with
  | true =>
    have hmax : sameFold "maxLength" key = false :=
      sameFold_eq_false_of_sameFold hmin (by decide +kernel)
    rw [readField_of_sameFold (by decide +kernel) hmin, hmax, ← hnoteMin, ← hnoteMax]
    exact ⟨rfl, rfl⟩
  | false =>
    cases hmax : sameFold "maxLength" key with
    | true =>
      rw [readField_of_sameFold (by decide +kernel) hmax, ← hnoteMin]
      exact ⟨rfl, rfl⟩
    | false =>
      simp only [Bool.false_eq_true, if_false]
      rcases readField_cases key with ⟨f, -, hfold, heq⟩ | ⟨-, heq⟩
      · have hneMin : f.1 ≠ "minLength" := by
          intro hname
          rw [hname, hmin] at hfold
          cases hfold
        have hneMax : f.1 ≠ "maxLength" := by
          intro hname
          rw [hname, hmax] at hfold
          cases hfold
        rw [heq, ← hnoteMin, ← hnoteMax]
        exact setField_lengths hneMin hneMax _ v
      · rw [heq]
        exact ⟨hnoteMin, hnoteMax⟩

/-- `readField` over more fields keeps the lengths equal to those stated so far. -/
theorem foldl_readField_lengths (fields : List (String × Json)) {s : Schema}
    {least greatest : Option Nat} (hmin : s.minLength = least.getD 0)
    (hmax : s.maxLength = greatest) :
    (fields.foldl Schema.readField s).minLength = (fields.foldl nextMinLength least).getD 0 ∧
      (fields.foldl Schema.readField s).maxLength = fields.foldl nextMaxLength greatest := by
  induction fields generalizing s least greatest with
  | nil => exact ⟨hmin, hmax⟩
  | cons f rest ih =>
    obtain ⟨hreadMin, hreadMax⟩ := readField_lengths s f
    refine ih ?_ ?_
    · rw [hreadMin, hmin, nextMinLength]
      split_ifs
      · cases jsonCount? f.2 <;> rfl
      · rfl
    · rw [hreadMax, hmax, nextMaxLength]

/-- **The lengths of `Schema.ofFields fields` are those that `fields` state.** -/
theorem ofFields_lengths (fields : List (String × Json)) :
    (Schema.ofFields fields).minLength = (declaredMinLength fields).getD 0 ∧
      (Schema.ofFields fields).maxLength = declaredMaxLength fields :=
  foldl_readField_lengths fields rfl rfl

/-- How the constraints of a property compare with the lengths that its schema states. -/
structure LengthsCompared (anchors : Anchors) (node : Node) (constraints : Constraints) :
    Prop where
  /-- `maxLength` is as stated, in every spelling. -/
  maxLength_eq : constraints.maxLength = declaredMaxLength (decodedFields anchors node)
  /-- `minLength` is as stated, unless it is `0` and stated under another spelling only. -/
  minLength_iff : ∀ n, declaredMinLength (decodedFields anchors node) = some n →
    (constraints.minLength = some n ↔ n ≠ 0 ∨ "minLength" ∈ (node.entries anchors).map (·.key))

theorem constraints_lengthsCompared {node : Node} {s : Schema} {raw : Value}
    (h : decodeSchema anchors node = .ok (some (.schema s, raw))) :
    LengthsCompared anchors node (s.constraints raw) := by
  obtain ⟨rfl, -, -, -, hraw⟩ := decodedFields_of_decodeSchema h
  obtain ⟨hmin, hmax⟩ := ofFields_lengths (decodedFields anchors node)
  refine ⟨hmax, fun n hn => ?_⟩
  rw [hn, Option.getD_some] at hmin
  rw [← hraw "minLength", Schema.constraints]
  dsimp only
  rw [hmin]
  by_cases hzero : n = 0
  · cases (raw.field? "minLength").isSome <;> simp [hzero]
  · simp [hzero]

/-! ### Models -/

/-- `LengthsCompared` of a property that `readProperty` keeps. -/
theorem lengthsCompared_of_readProperty {schema : String} {parent : Metadata} {entry : Entry}
    {p : Property} (h : readProperty options anchors schema parent entry = .ok (.inl p)) :
    p.name = entry.key ∧ LengthsCompared anchors entry.node p.constraints := by
  unfold readProperty at h
  rcases hdecode : decodeSchema anchors entry.node with cause | _ | ⟨target | s, raw⟩ <;>
    rw [hdecode] at h
  · cases h
  · cases h
  · cases h
  · dsimp only [bind, Except.bind] at h
    split at h
    · cases h
    · cases h
      exact ⟨rfl, constraints_lengthsCompared hdecode⟩

-- A least length of zero under another spelling is lost.
example :
    let node : Node :=
      .mapping [.ofText "type", .ofText "string", .ofText "MinLength", .scalar ⟨.int, "0", 0⟩]
    declaredMinLength (decodedFields #[] node) = some 0 ∧
      ((readProperty {} #[] "A" {} ⟨"x", node⟩).toOption.bind Sum.getLeft?).map
        (fun p => p.constraints.minLength) = some none := by
  decide +kernel

theorem lengthsCompared_of_mem_kept {schema : String} {parent : Metadata} {entries : List Entry}
    {p : Property} (h : p ∈ (readProperties options anchors schema parent entries).kept) :
    ∃ e ∈ entries, p.name = e.key ∧ LengthsCompared anchors e.node p.constraints := by
  induction entries with
  | nil => cases h
  | cons entry rest ih =>
    have hrest : p ∈ (readProperties options anchors schema parent rest).kept →
        ∃ e ∈ entry :: rest, p.name = e.key ∧ LengthsCompared anchors e.node p.constraints := by
      intro hp
      obtain ⟨e, he, hcompared⟩ := ih hp
      exact ⟨e, List.mem_cons_of_mem _ he, hcompared⟩
    rw [readProperties] at h
    split at h
    · cases h
    · rename_i hread
      rcases List.mem_cons.1 h with rfl | h
      · exact ⟨entry, List.mem_cons_self, lengthsCompared_of_readProperty hread⟩
      · exact hrest h
    · exact hrest h

/-- How the model of a schema and the skips compare with the decoded schema. -/
structure ViewsCompared (anchors : Anchors) (result : ReadResult) (entry : Entry) (m : Model) :
    Prop where
  /-- What is kept or skipped is what is under the key `properties`. -/
  told_iff : ∀ name,
    (name ∈ m.properties.toList.map (·.name) ∨
        ∃ skip ∈ result.skipped, skip.schema = entry.key ∧ skip.property = name) ↔
      name ∈ (propertyEntries anchors entry.node).map (·.key)
  /-- What the decoded schema has is what is under the last spelling of `properties`. -/
  declared_iff : ∀ key,
    IsLastSpelling ((entry.node.entries anchors).map (·.key)) "properties" key →
    ∀ name, name ∈ declaredProperties (decodedFields anchors entry.node) ↔
      name ∈ (entriesUnder anchors entry.node key).map (·.key) ∧ name ≠ originName
  /-- If there is no other spelling of `properties` the two are equal, but for `originName`. -/
  agree : (∀ key ∈ (entry.node.entries anchors).map (·.key),
      sameFold "properties" key = true → key = "properties") →
    ∀ name, name ∈ declaredProperties (decodedFields anchors entry.node) ↔
      name ∈ (propertyEntries anchors entry.node).map (·.key) ∧ name ≠ originName
  /-- `LengthsCompared` of each property that is kept. -/
  lengths : ∀ p ∈ m.properties.toList, ∃ e ∈ propertyEntries anchors entry.node,
    p.name = e.key ∧ LengthsCompared anchors e.node p.constraints

theorem outcome_of_model? {r : SchemaReading} {m : Model} (h : r.model? = some m) :
    r.outcome = .ok (some m) := by
  unfold SchemaReading.model? at h
  split at h
  · rename_i heq
    rw [heq, h]
  · cases h

/-- The properties of the model are those that `readProperties` has kept. -/
theorem toList_properties_of_readObject {entry : Entry} {s : Schema} {raw : Value} {m : Model}
    (h : (readObject options anchors entry s raw).outcome = .ok (some m)) :
    m.properties.toList = (readProperties options anchors entry.key (s.metadata raw)
      (propertyEntries anchors entry.node)).kept := by
  obtain ⟨hcause, -⟩ := readObject_eq_ok h
  have hnodup := names_nodup_kept hcause
  unfold readObject at h
  dsimp only at h
  rw [hcause] at h
  dsimp only at h
  unfold Model.build at h
  split_ifs at h
  cases h
  exact Properties.toList_ofList hnodup

/-- What is kept or skipped are the keys of the properties. -/
theorem mem_or_mem_iff_of_divided {schema : String} {required keys : List String}
    {kept : List Property} {skips : List Skip} (h : Divided schema required keys kept skips)
    (name : String) :
    (name ∈ kept.map (·.name) ∨ name ∈ skips.map (·.property)) ↔ name ∈ keys := by
  constructor
  · rintro (hkept | hskip)
    · exact h.kept_sublist.subset hkept
    · exact h.skips_sublist.subset hskip
  · intro hkey
    have honce := h.once name hkey
    by_contra hnot
    rw [not_or, ← List.count_eq_zero, ← List.count_eq_zero] at hnot
    omega

/-- **`ViewsCompared` of a schema that becomes a model.** -/
theorem viewsCompared_of_model {result : ReadResult} {entry : Entry} {m : Model}
    (haccounted : Accounted anchors entry (some m) (readSchema options anchors entry).skips)
    (hmodel : (readSchema options anchors entry).model? = some m)
    (hskipped : ∀ name,
      (∃ skip ∈ result.skipped, skip.schema = entry.key ∧ skip.property = name) ↔
        name ∈ (readSchema options anchors entry).skips.map (·.property)) :
    ViewsCompared anchors result entry m := by
  obtain ⟨s, raw, hdecode, hkept⟩ : ∃ s raw,
      decodeSchema anchors entry.node = .ok (some (.schema s, raw)) ∧
      m.properties.toList = (readProperties options anchors entry.key (s.metadata raw)
        (propertyEntries anchors entry.node)).kept := by
    rcases readSchema_cases options anchors entry with
      ⟨reason, target, heq⟩ | ⟨cause, heq⟩ | ⟨s, raw, -, hdecode, heq⟩ <;> rw [heq] at hmodel
    · cases hmodel
    · cases hmodel
    · exact ⟨s, raw, hdecode, toList_properties_of_readObject (outcome_of_model? hmodel)⟩
  have hdeclared := fun {key} => @mem_declaredProperties_iff anchors entry.node s raw hdecode key
  refine ⟨fun name => ?_, fun key hlast => hdeclared hlast, fun honly name => ?_, fun p hp => ?_⟩
  · rw [hskipped name]
    cases haccounted with
    | model _ _ _ _ divided => exact mem_or_mem_iff_of_divided divided name
  · have hself : sameFold "properties" "properties" = true := beq_self_eq_true _
    by_cases hmem : "properties" ∈ (entry.node.entries anchors).map (·.key)
    · exact hdeclared ⟨hmem, hself, fun other hother hspells =>
        honly other hother hspells ▸ String.le_refl _⟩ name
    · have hunspelled : ∀ key ∈ (entry.node.entries anchors).map (·.key),
          sameFold "properties" key = false := by
        intro key hkey
        rw [Bool.eq_false_iff]
        exact fun hspells => hmem (honly key hkey hspells ▸ hkey)
      have hnone : propertyEntries anchors entry.node = [] := entriesUnder_of_not_mem hmem
      rw [declaredProperties_of_unspelled hdecode hunspelled, hnone]
      simp
  · rw [hkept] at hp
    exact lengthsCompared_of_mem_kept hp

/-- **The two views of a schema.**  For every model, what is kept or skipped is what is under the
key `properties`, while the decoded schema has what is under the last spelling of that key, and
`LengthsCompared` holds. -/
theorem readModels_views (options : ReaderOptions) (document : Document)
    (session session' : Session) (result : ReadResult)
    (h : (readModels options document).run.run session = (.ok result, session')) :
    ∃ tree children,
      parseTree document.raw = .ok tree ∧ schemas? tree = some (.mapping children) ∧
      ∀ m ∈ result.models, ∃ entry ∈ Node.entries tree.anchors (.mapping children),
        entry.key = m.name ∧ ViewsCompared tree.anchors result entry m := by
  obtain ⟨tree, children, session₁, hparse, hschemas, -, hread⟩ := readModels_eq_ok h
  obtain ⟨haccounted, hmodels, hskipped, -⟩ := readSchemas_eq_ok hread
  have hnodup := Node.nodup_map_key_entries tree.anchors (.mapping children)
  refine ⟨tree, children, hparse, hschemas, fun m hm => ?_⟩
  rw [hmodels] at hm
  obtain ⟨entry, hentry, hmodel⟩ := List.mem_filterMap.1 hm
  have haccount := haccounted entry hentry
  rw [hmodel] at haccount
  refine ⟨entry, hentry, ?_, viewsCompared_of_model haccount hmodel fun name => ?_⟩
  · cases haccount with
    | model _ name_eq => exact name_eq.symm
  · rw [hskipped]
    exact exists_mem_skipped_iff haccounted hnodup hentry name

/-! ### A property that is lost -/

/-- A document with a schema whose property is under `Properties`. -/
def respelledDocument : Document where
  raw := (r#"{"openapi": "3.0.0", "components": {"schemas": {"A": {"#
    ++ r#""type": "object", "Properties": {"x": {"type": "string"}}}}"#
    ++ r"}}").toUTF8

theorem run_respelledDocument :
    ((readModels {} respelledDocument).run.run {}).1.toOption.map (fun result =>
        (result.models.map fun m => (m.name, m.properties.toList.map (·.name)), result.skipped)) =
      some ([("A", [])], []) := by
  decide +kernel

theorem declared_respelledDocument :
    ((parseTree respelledDocument.raw).toOption.bind fun tree =>
        (schemas? tree).map fun node => (node.entries tree.anchors).map fun e =>
          (e.key, declaredProperties (decodedFields tree.anchors e.node))) =
      some [("A", ["x"])] := by
  decide +kernel

theorem exists_run_respelledDocument :
    ∃ result session' m, (readModels {} respelledDocument).run.run {} = (.ok result, session') ∧
      m ∈ result.models ∧ m.name = "A" ∧ m.properties.toList = [] ∧ result.skipped = [] := by
  have hresult := run_respelledDocument
  rcases hrun : (readModels {} respelledDocument).run.run {} with ⟨e | result, session'⟩
  · rw [hrun] at hresult
    cases hresult
  rw [hrun] at hresult
  obtain ⟨hmodels, hskipped⟩ := Prod.mk.inj (Option.some.inj hresult)
  obtain ⟨m, hone, hm⟩ := List.map_eq_singleton_iff.1 hmodels
  obtain ⟨hname, hproperties⟩ := Prod.mk.inj hm
  have hmem : m ∈ result.models := by
    rw [hone]
    exact List.mem_singleton_self m
  exact ⟨result, session', m, rfl, hmem, hname, List.map_eq_nil_iff.1 hproperties, hskipped⟩

theorem declaredProperties_of_mem_respelledDocument {tree : Tree} {children : List Node}
    (hparse : parseTree respelledDocument.raw = .ok tree)
    (hschemas : schemas? tree = some (.mapping children)) {entry : Entry}
    (hentry : entry ∈ Node.entries tree.anchors (.mapping children)) :
    entry.key = "A" ∧ declaredProperties (decodedFields tree.anchors entry.node) = ["x"] := by
  have hdeclared := declared_respelledDocument
  rw [hparse] at hdeclared
  simp only [Except.toOption, Option.bind_some, hschemas, Option.map_some, Option.some.injEq]
    at hdeclared
  have hmem := List.mem_map_of_mem
    (f := fun e : Entry => (e.key, declaredProperties (decodedFields tree.anchors e.node))) hentry
  rw [hdeclared, List.mem_singleton] at hmem
  exact Prod.mk.inj hmem

/-- The decoded schema of `respelledDocument` has the property `x`, which is neither in the model
nor skipped. -/
theorem readModels_loses_property :
    ∃ result session' tree children entry m,
      (readModels {} respelledDocument).run.run {} = (.ok result, session') ∧
      parseTree respelledDocument.raw = .ok tree ∧ schemas? tree = some (.mapping children) ∧
      entry ∈ Node.entries tree.anchors (.mapping children) ∧
      m ∈ result.models ∧ m.name = entry.key ∧
      "x" ∈ declaredProperties (decodedFields tree.anchors entry.node) ∧
      "x" ∉ m.properties.toList.map (·.name) ∧ ∀ skip ∈ result.skipped, skip.property ≠ "x" := by
  obtain ⟨result, session', m, hrun, hm, hname, hproperties, hskipped⟩ :=
    exists_run_respelledDocument
  obtain ⟨tree, children, _, hparse, hschemas, -, hread⟩ := readModels_eq_ok hrun
  obtain ⟨-, hfrom, -⟩ := readSchemas_eq_ok hread
  obtain ⟨entry, hentry, -⟩ := List.mem_filterMap.1 (hfrom ▸ hm)
  obtain ⟨hkey, hdeclared⟩ := declaredProperties_of_mem_respelledDocument hparse hschemas hentry
  refine ⟨result, session', tree, children, entry, m, hrun, hparse, hschemas, hentry, hm,
    hname.trans hkey.symm, ?_, ?_, ?_⟩
  · rw [hdeclared]
    exact List.mem_singleton_self "x"
  · rw [hproperties]
    exact List.not_mem_nil
  · rw [hskipped]
    exact fun skip hskip => absurd hskip List.not_mem_nil

theorem readModels_views_respelledDocument :
    ∃ result session' tree children entry m,
      (readModels {} respelledDocument).run.run {} = (.ok result, session') ∧
      parseTree respelledDocument.raw = .ok tree ∧ schemas? tree = some (.mapping children) ∧
      entry ∈ Node.entries tree.anchors (.mapping children) ∧ m ∈ result.models ∧
      declaredProperties (decodedFields tree.anchors entry.node) = ["x"] ∧
      ViewsCompared tree.anchors result entry m := by
  obtain ⟨result, session', m, hrun, hm, -⟩ := exists_run_respelledDocument
  obtain ⟨tree, children, hparse, hschemas, hviews⟩ :=
    readModels_views {} respelledDocument {} session' result hrun
  obtain ⟨entry, hentry, -, hcompared⟩ := hviews m hm
  obtain ⟨-, hdeclared⟩ := declaredProperties_of_mem_respelledDocument hparse hschemas hentry
  exact ⟨result, session', tree, children, entry, m, hrun, hparse, hschemas, hentry, hm, hdeclared,
    hcompared⟩

end SchemaPress.OpenApi
