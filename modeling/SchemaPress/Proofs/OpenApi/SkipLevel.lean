import SchemaPress.Proofs.OpenApi.Reading

/-!
# At which level something is left out

A skip with an empty property says that a schema was left out as a whole, and its warning names no
property.  The key of a property may be empty as well, because a text in quotes may be, and because
a key that is no scalar has no text.  If such a property is left out, the report has a skip of the
schema beside the model of the schema.

This is the only case in which the report is ambiguous (`readModels_levels`): a schema is reported
as left out just if it has no model or a property with an empty key is left out of it, and every
other property that is left out is named, in the report and in the log.
-/

namespace SchemaPress.OpenApi

variable {options : ReaderOptions} {anchors : Anchors}

/-- One of `result.models` has the given name. -/
def ReadResult.HasModel (result : ReadResult) (name : String) : Prop :=
  ∃ model ∈ result.models, model.name = name

/-- One of `result.skipped` has the given schema and an empty property. -/
def ReadResult.LeavesOut (result : ReadResult) (name : String) : Prop :=
  ∃ skip ∈ result.skipped, skip.schema = name ∧ skip.property = ""

/-- `decodeSchema` gives no schema, a reference, or a schema without `properTypes`. -/
inductive NoProperty (anchors : Anchors) (node : Node) : Prop
  | notMapping (h : decodeSchema anchors node = .ok none)
  | reference {target : String} {raw : Value}
      (h : decodeSchema anchors node = .ok (some (.reference target, raw)))
  | untyped {s : Schema} {raw : Value} (h : decodeSchema anchors node = .ok (some (.schema s, raw)))
      (no_type : s.properTypes = [])

/-- One of the property entries of `node` has an empty key and is `NoProperty`. -/
def DropsUnnamed (anchors : Anchors) (node : Node) : Prop :=
  ∃ p ∈ propertyEntries anchors node, p.key = "" ∧ NoProperty anchors p.node

/-- The event of the skip has a field `property`. -/
def Skip.WarnsOfProperty (s : Skip) : Prop :=
  ∃ value, ("property", value) ∈ s.event.fields

/-- The event has a field `property` if and only if `s.property` is not empty. -/
theorem Skip.warnsOfProperty_iff (s : Skip) : s.WarnsOfProperty ↔ s.property ≠ "" := by
  unfold WarnsOfProperty event
  by_cases hproperty : s.property = ""
  · by_cases htarget : s.target = "" <;> simp [hproperty, htarget]
  · simp [hproperty]

/-! ### Properties -/

/-- `readProperty` gives a skip if and only if the node is `NoProperty`. -/
theorem readProperty_eq_skip_iff {schema : String} {parent : Metadata} {entry : Entry} :
    (∃ skip, readProperty options anchors schema parent entry = .ok (.inr skip)) ↔
      NoProperty anchors entry.node := by
  constructor
  · rintro ⟨skip, h⟩
    unfold readProperty at h
    rcases hdecode : decodeSchema anchors entry.node with cause | _ | ⟨target | s, raw⟩ <;>
      rw [hdecode] at h
    · cases h
    · exact .notMapping hdecode
    · exact .reference hdecode
    · dsimp only [bind, Except.bind] at h
      split at h
      · exact .untyped hdecode ‹_›
      · cases h
  · intro h
    unfold readProperty
    cases h with
    | notMapping h =>
      rw [h]
      exact ⟨_, rfl⟩
    | reference h =>
      rw [h]
      exact ⟨_, rfl⟩
    | untyped h no_type =>
      rw [h]
      dsimp only [bind, Except.bind]
      rw [no_type]
      exact ⟨_, rfl⟩

/-- If `readProperties` has no cause of failure, it skips `key` if and only if an entry with that
key is `NoProperty`. -/
theorem mem_map_property_readProperties_iff {schema : String} {parent : Metadata}
    {entries : List Entry} (h : (readProperties options anchors schema parent entries).cause = none)
    (key : String) :
    key ∈ (readProperties options anchors schema parent entries).skips.map (·.property) ↔
      ∃ p ∈ entries, p.key = key ∧ NoProperty anchors p.node := by
  induction entries with
  | nil => simp [readProperties]
  | cons entry rest ih =>
    have hskip := @readProperty_eq_skip_iff options anchors schema parent entry
    rw [readProperties] at h ⊢
    rw [List.exists_mem_cons_iff]
    rcases hread : readProperty options anchors schema parent entry with cause | property | skip <;>
      rw [hread] at h hskip
    · cases h
    · have hno : ¬ NoProperty anchors entry.node := by
        intro hno
        obtain ⟨skip, heq⟩ := hskip.2 hno
        cases heq
      simp only [hno, and_false, false_or]
      exact ih h
    · have hno : NoProperty anchors entry.node := hskip.1 ⟨skip, rfl⟩
      have hkey : skip.property = entry.key := by
        rcases readProperty_eq_ok hread with ⟨p, heq, -⟩ | ⟨skip', heq, -, hkey⟩
        · cases heq
        · cases heq
          exact hkey
      simp only [hno, and_true, List.map_cons, List.mem_cons, hkey, eq_comm (a := key)]
      exact or_congr_right (ih h)

/-! ### Schemas -/

theorem readObject_eq_ok {entry : Entry} {s : Schema} {raw : Value} {model : Option Model}
    (h : (readObject options anchors entry s raw).outcome = .ok model) :
    (readProperties options anchors entry.key (s.metadata raw)
        (propertyEntries anchors entry.node)).cause = none ∧
      (readObject options anchors entry s raw).skips =
        (readProperties options anchors entry.key (s.metadata raw)
          (propertyEntries anchors entry.node)).skips := by
  unfold readObject at h ⊢
  dsimp only at h ⊢
  split at h
  · cases h
  · rename_i hcause
    refine ⟨hcause, ?_⟩
    split <;> rfl

/-- If `readSchema` gives a model, it skips `key` if and only if a property entry with that key is
`NoProperty`. -/
theorem mem_map_property_skips_iff {entry : Entry} {model : Model}
    (h : (readSchema options anchors entry).model? = some model) (key : String) :
    key ∈ (readSchema options anchors entry).skips.map (·.property) ↔
      ∃ p ∈ propertyEntries anchors entry.node, p.key = key ∧ NoProperty anchors p.node := by
  rcases readSchema_cases options anchors entry with
    ⟨reason, target, heq⟩ | ⟨cause, heq⟩ | ⟨s, raw, -, -, heq⟩ <;> rw [heq] at h ⊢
  · cases h
  · cases h
  · have houtcome : (readObject options anchors entry s raw).outcome = .ok (some model) := by
      unfold SchemaReading.model? at h
      split at h
      · rename_i hmodel
        rw [hmodel, h]
      · cases h
    obtain ⟨hcause, hskips⟩ := readObject_eq_ok houtcome
    rw [hskips]
    exact mem_map_property_readProperties_iff hcause key

/-! ### Reports -/

/-- The skips that are `Accounted` for an entry have its key as their schema. -/
theorem Accounted.schema_eq {entry : Entry} {model : Option Model} {skips : List Skip}
    (h : Accounted anchors entry model skips) {skip : Skip} (hskip : skip ∈ skips) :
    skip.schema = entry.key := by
  cases h with
  | model _ _ _ _ divided => exact divided.schema_eq skip hskip
  | skip schema_eq =>
    rw [List.mem_singleton.1 hskip]
    exact schema_eq

section Report

variable {entries : List Entry} {entry : Entry}
  (haccounted : ∀ e ∈ entries, Accounted anchors e (readSchema options anchors e).model?
    (readSchema options anchors e).skips)
  (hnodup : (entries.map (·.key)).Nodup)

include haccounted in
/-- If `readSchema` gives no model, it skips the empty property. -/
theorem mem_map_property_of_no_model (hentry : entry ∈ entries)
    (h : ¬ ∃ model, (readSchema options anchors entry).model? = some model) :
    "" ∈ (readSchema options anchors entry).skips.map (·.property) := by
  have haccount := haccounted entry hentry
  generalize (readSchema options anchors entry).model? = model at h haccount
  generalize (readSchema options anchors entry).skips = skips at haccount
  cases haccount with
  | model => exact absurd ⟨_, rfl⟩ h
  | skip _ property_eq => simp [property_eq]

include haccounted hnodup

/-- One of the models of `entries` has the name `entry.key` if and only if `readSchema` gives a
model for `entry`. -/
theorem exists_mem_models_iff (hentry : entry ∈ entries) :
    (∃ model ∈ entries.filterMap fun e => (readSchema options anchors e).model?,
        model.name = entry.key) ↔
      ∃ model, (readSchema options anchors entry).model? = some model := by
  have hname : ∀ e ∈ entries, ∀ model, (readSchema options anchors e).model? = some model →
      model.name = e.key := by
    intro e he model hmodel
    have h := haccounted e he
    rw [hmodel] at h
    cases h with
    | model _ name_eq => exact name_eq
  constructor
  · rintro ⟨model, hmem, hkey⟩
    obtain ⟨e, he, hmodel⟩ := List.mem_filterMap.1 hmem
    have hsame : e.key = entry.key := by rw [← hname e he model hmodel, hkey]
    obtain rfl := List.inj_on_of_nodup_map hnodup he hentry hsame
    exact ⟨model, hmodel⟩
  · rintro ⟨model, hmodel⟩
    exact ⟨model, List.mem_filterMap.2 ⟨entry, hentry, hmodel⟩, hname entry hentry model hmodel⟩

/-- The skips of `entries` whose schema is `entry.key` are those of `entry`. -/
theorem mem_flatMap_skips_iff (hentry : entry ∈ entries) {skip : Skip}
    (hschema : skip.schema = entry.key) :
    skip ∈ entries.flatMap (fun e => (readSchema options anchors e).skips) ↔
      skip ∈ (readSchema options anchors entry).skips := by
  constructor
  · intro hmem
    obtain ⟨e, he, hskip⟩ := List.mem_flatMap.1 hmem
    have hsame : e.key = entry.key := by rw [← (haccounted e he).schema_eq hskip, hschema]
    obtain rfl := List.inj_on_of_nodup_map hnodup he hentry hsame
    exact hskip
  · intro hskip
    exact List.mem_flatMap.2 ⟨entry, hentry, hskip⟩

/-- A skip of `entries` has the schema `entry.key` and the property `key` if and only if
`readSchema` skips `key` for `entry`. -/
theorem exists_mem_skipped_iff (hentry : entry ∈ entries) (key : String) :
    (∃ skip ∈ entries.flatMap fun e => (readSchema options anchors e).skips,
        skip.schema = entry.key ∧ skip.property = key) ↔
      key ∈ (readSchema options anchors entry).skips.map (·.property) := by
  constructor
  · rintro ⟨skip, hmem, hschema, hkey⟩
    rw [mem_flatMap_skips_iff haccounted hnodup hentry hschema] at hmem
    exact List.mem_map.2 ⟨skip, hmem, hkey⟩
  · intro hmem
    obtain ⟨skip, hskip, hkey⟩ := List.mem_map.1 hmem
    have hschema := (haccounted entry hentry).schema_eq hskip
    exact ⟨skip, (mem_flatMap_skips_iff haccounted hnodup hentry hschema).2 hskip, hschema, hkey⟩

end Report

/-- **The level of a skip.**  If `readModels` succeeds, the result `LeavesOut` a schema if and only
if it has no model of it, or the schema `DropsUnnamed`.  A skip with any other property names it in
its event. -/
theorem readModels_levels (options : ReaderOptions) (document : Document)
    (session session' : Session) (result : ReadResult)
    (h : (readModels options document).run.run session = (.ok result, session')) :
    ∃ tree children,
      parseTree document.raw = .ok tree ∧ schemas? tree = some (.mapping children) ∧
      session'.log = session.log ++ result.skipped.map Skip.event ∧
      ∀ entry ∈ Node.entries tree.anchors (.mapping children),
        (result.HasModel entry.key ∨ result.LeavesOut entry.key) ∧
        (result.LeavesOut entry.key ↔
          ¬ result.HasModel entry.key ∨ DropsUnnamed tree.anchors entry.node) ∧
        (result.HasModel entry.key →
          ∀ p ∈ propertyEntries tree.anchors entry.node, NoProperty tree.anchors p.node →
            ∃ skip ∈ result.skipped, skip.schema = entry.key ∧ skip.property = p.key ∧
              (skip.WarnsOfProperty ↔ p.key ≠ "")) := by
  obtain ⟨tree, children, session₁, hparse, hschemas, hlog₁, hread⟩ := readModels_eq_ok h
  obtain ⟨haccounted, hmodels, hskipped, hlog⟩ := readSchemas_eq_ok hread
  have hnodup := Node.nodup_map_key_entries tree.anchors (.mapping children)
  refine ⟨tree, children, hparse, hschemas, by rw [hlog, hlog₁], fun entry hentry => ?_⟩
  have hmodel : result.HasModel entry.key ↔
      ∃ model, (readSchema options tree.anchors entry).model? = some model := by
    unfold ReadResult.HasModel
    rw [hmodels]
    exact exists_mem_models_iff haccounted hnodup hentry
  have hskip : ∀ key, (∃ skip ∈ result.skipped, skip.schema = entry.key ∧ skip.property = key) ↔
      key ∈ (readSchema options tree.anchors entry).skips.map (·.property) := by
    intro key
    rw [hskipped]
    exact exists_mem_skipped_iff haccounted hnodup hentry key
  have hleaves : result.LeavesOut entry.key ↔
      ¬ result.HasModel entry.key ∨ DropsUnnamed tree.anchors entry.node := by
    unfold ReadResult.LeavesOut
    rw [hskip, hmodel]
    by_cases hsome : ∃ model, (readSchema options tree.anchors entry).model? = some model
    · obtain ⟨model, heq⟩ := hsome
      rw [mem_map_property_skips_iff heq]
      exact ⟨Or.inr, fun h => h.resolve_left (fun hnone => hnone ⟨model, heq⟩)⟩
    · have hblank := mem_map_property_of_no_model haccounted hentry hsome
      exact ⟨fun _ => .inl hsome, fun _ => hblank⟩
  refine ⟨?_, hleaves, fun hhas p hp hno => ?_⟩
  · by_cases hhas : result.HasModel entry.key
    · exact .inl hhas
    · exact .inr (hleaves.2 (.inl hhas))
  · obtain ⟨model, heq⟩ := hmodel.1 hhas
    have hmem := (mem_map_property_skips_iff heq p.key).2 ⟨p, hp, rfl, hno⟩
    obtain ⟨skip, hskipped, hschema, hkey⟩ := (hskip p.key).2 hmem
    exact ⟨skip, hskipped, hschema, hkey, by rw [skip.warnsOfProperty_iff, hkey]⟩

/-! ### A property with an empty key -/

/-- A document with a schema of two properties without a type, one of which has an empty key. -/
def unnamedDocument : Document where
  raw := (r#"{"openapi": "3.0.0", "components": {"schemas": {"A": {"#
    ++ r#""type": "object", "properties": {"": {}, "x": {}}}}}"#
    ++ r"}").toUTF8

theorem run_unnamedDocument :
    ((readModels {} unnamedDocument).run.run {}).1.toOption.map
        (fun result => (result.models.map (·.name), result.skipped)) =
      some (["A"], [⟨"A", "", .untyped, ""⟩, ⟨"A", "x", .untyped, ""⟩]) ∧
    ((readModels {} unnamedDocument).run.run {}).2.log.map (·.message) =
      ["schema root is not an object, skipping", "property has no primitive type, skipping"] := by
  decide +kernel

theorem keys_unnamedDocument :
    ((parseTree unnamedDocument.raw).toOption.bind fun tree =>
        (schemas? tree).map fun node => (node.entries tree.anchors).map (·.key)) = some ["A"] := by
  decide +kernel

theorem exists_run_unnamedDocument :
    ∃ result session', (readModels {} unnamedDocument).run.run {} = (.ok result, session') ∧
      result.HasModel "A" ∧ result.LeavesOut "A" ∧
      session'.log.map (·.message) =
        ["schema root is not an object, skipping", "property has no primitive type, skipping"] := by
  obtain ⟨hresult, hlog⟩ := run_unnamedDocument
  rcases hrun : (readModels {} unnamedDocument).run.run {} with ⟨e | result, session'⟩
  · rw [hrun] at hresult
    cases hresult
  rw [hrun] at hresult hlog
  have hnames : result.models.map (·.name) = ["A"] := congrArg Prod.fst (Option.some.inj hresult)
  have hskips : result.skipped = [⟨"A", "", .untyped, ""⟩, ⟨"A", "x", .untyped, ""⟩] :=
    congrArg Prod.snd (Option.some.inj hresult)
  refine ⟨result, session', rfl, ?_, ?_, hlog⟩
  · apply List.mem_map.1
    rw [hnames]
    exact List.mem_singleton_self "A"
  · unfold ReadResult.LeavesOut
    rw [hskips]
    exact ⟨_, List.mem_cons_self, rfl, rfl⟩

/-- For `unnamedDocument`, the result `HasModel "A"` and `LeavesOut "A"`, and an event says that the
schema is not an object. -/
theorem readModels_ambiguous :
    ∃ result session', (readModels {} unnamedDocument).run.run {} = (.ok result, session') ∧
      (result.HasModel "A" ∧ result.LeavesOut "A") ∧
      ∃ event ∈ session'.log, event.message = "schema root is not an object, skipping" := by
  obtain ⟨result, session', hrun, hmodel, hleaves, hlog⟩ := exists_run_unnamedDocument
  refine ⟨result, session', hrun, ⟨hmodel, hleaves⟩, ?_⟩
  apply List.mem_map.1
  rw [hlog]
  exact List.mem_cons_self

theorem readModels_levels_unnamedDocument :
    ∃ result session' tree children entry,
      (readModels {} unnamedDocument).run.run {} = (.ok result, session') ∧
      schemas? tree = some (.mapping children) ∧
      entry ∈ Node.entries tree.anchors (.mapping children) ∧ entry.key = "A" ∧
      result.HasModel entry.key ∧ DropsUnnamed tree.anchors entry.node := by
  obtain ⟨result, session', hrun, hmodel, hleaves, -⟩ := exists_run_unnamedDocument
  obtain ⟨tree, children, hparse, hschemas, -, hlevels⟩ :=
    readModels_levels {} unnamedDocument {} session' result hrun
  have hkeys := keys_unnamedDocument
  rw [hparse] at hkeys
  simp only [Except.toOption, Option.bind_some, hschemas, Option.map_some, Option.some.injEq]
    at hkeys
  have hmem : "A" ∈ (Node.entries tree.anchors (.mapping children)).map (·.key) := by
    rw [hkeys]
    exact List.mem_singleton_self "A"
  obtain ⟨entry, hentry, hkey⟩ := List.mem_map.1 hmem
  obtain ⟨-, hiff, -⟩ := hlevels entry hentry
  rw [← hkey] at hmodel hleaves
  have hdrops := (hiff.1 hleaves).resolve_left (fun hnone => hnone hmodel)
  exact ⟨result, session', tree, children, entry, hrun, hschemas, hentry, hkey, hmodel, hdrops⟩

end SchemaPress.OpenApi
