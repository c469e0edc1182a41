import Mathlib.Data.Sum.Basic
import SchemaPress.Proofs.Node.Order
import SchemaPress.Proofs.OpenApi.JsonDocument
import SchemaPress.Proofs.OpenApi.Reading

/-!
# Where the order of keys matters

Two documents that differ in the order of keys only, but name the properties of each schema in the
same order, are read alike (`readModels_reordered`).  Either both cannot be read, or the models and
skips of each schema are the same in both; only what a model keeps of the document as it was may
have its fields in another order.  So the order of the schemas is the order of their models, and
where that is the same, too, everything is.

The reason is that a schema is decoded from what it denotes with sorted fields
(`decodeSchema_accord`), and everything else is looked up by its key.
-/

namespace SchemaPress

/-! ### Alike models -/

/-- Equal metadata, but for raw values that are alike. -/
def Metadata.Alike (m m' : Metadata) : Prop :=
  m' = { m with raw := m'.raw } ∧ m.raw.Alike m'.raw

/-- Equal properties, but for raw values that are alike. -/
def Property.Alike (p p' : Property) : Prop :=
  p' = { p with constraints := { p.constraints with raw := p'.constraints.raw } } ∧
    p.constraints.raw.Alike p'.constraints.raw

/-- The same name, and alike metadata and properties in the same order. -/
structure Model.Alike (m m' : Model) : Prop where
  name : m.name = m'.name
  metadata : m.metadata.Alike m'.metadata
  properties : List.Forall₂ Property.Alike m.properties.toList m'.properties.toList

theorem Property.Alike.name_eq {p p' : Property} (h : p.Alike p') : p.name = p'.name := by
  rw [h.1]

theorem Metadata.Alike.required_eq {m m' : Metadata} (h : m.Alike m') :
    m.required = m'.required := by
  rw [h.1]

namespace OpenApi

variable {options : ReaderOptions} {anchors anchors' : Anchors} {R : Node → Node → Prop}

/-! ### Schemas -/

/-- Equal schemas or references, with alike raw values. -/
def DecodedAlike : Option (SchemaRef × Value) → Option (SchemaRef × Value) → Prop :=
  Option.Rel fun d d' => d.1 = d'.1 ∧ d.2.Alike d'.2

/-- **`decodeSchema` takes nodes that are related up to the order of keys to alike results**, or
fails on both. -/
theorem decodeSchema_accord (hR : Node.OrderRelation anchors anchors' R) {m n : Node} (h : R m n) :
    Accord DecodedAlike (decodeSchema anchors m) (decodeSchema anchors' n) := by
  have hvalue := hR.value h
  have hresolve := hR.follow.resolve? h
  unfold decodeSchema
  generalize m.resolve? anchors = m' at hresolve
  generalize n.resolve? anchors' = n' at hresolve
  generalize m.value anchors = v at hvalue
  generalize n.value anchors' = v' at hvalue
  cases hresolve with
  | none => exact .ok .none
  | @some m' n' hmn =>
    cases hR.follow m' n' hmn with
    | mapping _ _ =>
      cases hvalue with
      | error e e' => exact .error _ _
      | @ok raw raw' halike =>
        dsimp only [Except.mapError, bind, Except.bind]
        rw [halike.toJson?_eq]
        cases raw'.toJson?.bind SchemaRef.ofJson? with
        | none => exact .error _ _
        | some ref => exact .ok (.some ⟨rfl, halike⟩)
    | _ => exact .ok .none

theorem metadata_alike (s : Schema) {raw raw' : Value} (h : raw.Alike raw') :
    (s.metadata raw).Alike (s.metadata raw') :=
  ⟨rfl, h⟩

theorem constraints_alike (s : Schema) {raw raw' : Value} (h : raw.Alike raw') :
    s.constraints raw' = { s.constraints raw with raw := raw' } := by
  unfold Schema.constraints
  rw [h.isSome_field?]

/-- `readProperty` takes related entries to alike properties or the same skip, or fails on both. -/
theorem readProperty_accord (options : ReaderOptions)
    (hR : Node.OrderRelation anchors anchors' R) (schema : String) {parent parent' : Metadata}
    (hparent : parent.Alike parent') {e e' : Entry} (h : Node.EntryRel R e e') :
    Accord (Sum.LiftRel Property.Alike Eq) (readProperty options anchors schema parent e)
      (readProperty options anchors' schema parent' e') := by
  unfold readProperty
  refine (decodeSchema_accord hR h.2).bind fun d d' hd => ?_
  rw [← h.1]
  cases hd with
  | none => exact .ok (.inr rfl)
  | @some d d' hd =>
    obtain ⟨ref, raw⟩ := d
    obtain ⟨ref', raw'⟩ := d'
    obtain ⟨rfl, halike⟩ : ref = ref' ∧ raw.Alike raw' := hd
    cases ref with
    | reference target => exact .ok (.inr rfl)
    | schema s =>
      dsimp only
      split
      · exact .ok (.inr rfl)
      · refine .ok (.inl ⟨?_, halike⟩)
        rw [constraints_alike s halike, Metadata.isRequired, Metadata.isRequired,
          hparent.required_eq]

/-- The properties kept are alike and the skips equal, and both fail or neither does. -/
structure PropertiesReading.Alike (r r' : PropertiesReading) : Prop where
  kept : List.Forall₂ Property.Alike r.kept r'.kept
  skips : r.skips = r'.skips
  cause : r.cause = none ↔ r'.cause = none

theorem readProperties_alike (options : ReaderOptions)
    (hR : Node.OrderRelation anchors anchors' R) (schema : String) {parent parent' : Metadata}
    (hparent : parent.Alike parent') {es es' : List Entry}
    (h : List.Forall₂ (Node.EntryRel R) es es') :
    (readProperties options anchors schema parent es).Alike
      (readProperties options anchors' schema parent' es') := by
  induction h with
  | nil => exact ⟨.nil, rfl, Iff.rfl⟩
  | @cons e e' _ _ he _ ih =>
    have hread := readProperty_accord options hR schema hparent he
    rw [readProperties, readProperties]
    generalize readProperty options anchors schema parent e = r at hread
    generalize readProperty options anchors' schema parent' e' = r' at hread
    cases hread with
    | error cause cause' => exact ⟨.nil, rfl, by simp⟩
    | ok hproperty =>
      cases hproperty with
      | inl hproperty => exact ⟨.cons hproperty ih.kept, ih.skips, ih.cause⟩
      | inr hskip => exact ⟨ih.kept, congrArg₂ List.cons hskip ih.skips, ih.cause⟩

/-- The skips are equal, and the models alike, or both fail. -/
structure SchemaReading.Alike (r r' : SchemaReading) : Prop where
  skips : r.skips = r'.skips
  outcome : Accord (Option.Rel Model.Alike) r.outcome r'.outcome

theorem names_nodup_kept {schema : String} {parent : Metadata} {node : Node}
    (h : (readProperties options anchors schema parent (propertyEntries anchors node)).cause =
      none) :
    ((readProperties options anchors schema parent (propertyEntries anchors node)).kept.map
      (·.name)).Nodup :=
  (readProperties_divided h (nodup_map_key_propertyEntries anchors node)).kept_sublist.nodup
    (nodup_map_key_propertyEntries anchors node)

/-- `readObject` takes objects whose properties are related, in the same order, to alike readings.
-/
theorem readObject_alike (hR : Node.OrderRelation anchors anchors' R) {e e' : Entry}
    (hkey : e.key = e'.key) (hproperties : List.Forall₂ (Node.EntryRel R)
      (propertyEntries anchors e.node) (propertyEntries anchors' e'.node)) (s : Schema)
    {raw raw' : Value} (halike : raw.Alike raw') :
    (readObject options anchors e s raw).Alike (readObject options anchors' e' s raw') := by
  have hmetadata := metadata_alike s halike
  have hread := readProperties_alike options hR e.key hmetadata hproperties
  have hnodup := @names_nodup_kept options anchors e.key (s.metadata raw) e.node
  have hnodup' := @names_nodup_kept options anchors' e.key (s.metadata raw') e'.node
  unfold readObject
  rw [← hkey]
  generalize readProperties options anchors e.key (s.metadata raw)
    (propertyEntries anchors e.node) = read at hread hnodup
  generalize readProperties options anchors' e.key (s.metadata raw')
    (propertyEntries anchors' e'.node) = read' at hread hnodup'
  obtain ⟨kept, skips, cause⟩ := read
  obtain ⟨kept', skips', cause'⟩ := read'
  obtain ⟨hkept, hskips, hcause⟩ := hread
  dsimp only at hkept hskips hcause hnodup hnodup' ⊢
  cases cause with
  | some cause =>
    cases cause' with
    | some cause' => exact ⟨hskips, .error _ _⟩
    | none => cases hcause.2 rfl
  | none =>
    obtain rfl := hcause.1 rfl
    unfold Model.build
    dsimp only
    by_cases hblank : Text.isBlankText e.key = true
    · rw [if_pos hblank, if_pos hblank]
      exact ⟨hskips, .error _ _⟩
    · rw [if_neg hblank, if_neg hblank]
      refine ⟨hskips, .ok (.some ⟨rfl, hmetadata, ?_⟩)⟩
      rwa [Properties.toList_ofList (hnodup rfl), Properties.toList_ofList (hnodup' rfl)]

/-- **`readSchema` takes related entries to alike readings**, if their properties are in the same
order. -/
theorem readSchema_alike (options : ReaderOptions) (hR : Node.OrderRelation anchors anchors' R)
    {e e' : Entry} (h : Node.EntryRel R e e')
    (hkeys : (propertyEntries anchors e.node).map (·.key) =
      (propertyEntries anchors' e'.node).map (·.key)) :
    (readSchema options anchors e).Alike (readSchema options anchors' e') := by
  have hproperties : List.Forall₂ (Node.EntryRel R) (propertyEntries anchors e.node)
      (propertyEntries anchors' e'.node) := by
    refine Node.EntriesRel.forall₂ ?_ (nodup_map_key_propertyEntries anchors' e'.node) hkeys
    unfold propertyEntries
    have hlookup := hR.lookup? h.2 "properties"
    generalize e.node.lookup? anchors "properties" = m at hlookup
    generalize e'.node.lookup? anchors' "properties" = n at hlookup
    cases hlookup with
    | none => exact ⟨[], .nil, .rfl⟩
    | some hmn => exact hR.entries hmn
  have hdecode := decodeSchema_accord hR h.2
  rw [readSchema_eq, readSchema_eq, ← h.1]
  by_cases hblank : Text.isBlankText e.key = true
  · rw [if_pos hblank, if_pos hblank]
    exact ⟨rfl, .ok .none⟩
  rw [if_neg hblank, if_neg hblank]
  generalize decodeSchema anchors e.node = d at hdecode
  generalize decodeSchema anchors' e'.node = d' at hdecode
  cases hdecode with
  | error cause cause' => exact ⟨rfl, .error _ _⟩
  | ok hd =>
    cases hd with
    | none => exact ⟨rfl, .ok .none⟩
    | @some d d' hd =>
      obtain ⟨ref, raw⟩ := d
      obtain ⟨ref', raw'⟩ := d'
      obtain ⟨rfl, halike⟩ : ref = ref' ∧ raw.Alike raw' := hd
      cases ref with
      | reference target => exact ⟨rfl, .ok .none⟩
      | schema s =>
        dsimp only
        split
        · exact ⟨rfl, .ok .none⟩
        · exact readObject_alike hR h.1 hproperties s halike

/-! ### When a document can be read -/

theorem exists_run_bind_pure {α β : Type} {x : Job α} {f : α → β} {session : Session} :
    (∃ b, ((x >>= fun a => pure (f a)).run.run session).1 = .ok b) ↔
      ∃ a, (x.run.run session).1 = .ok a := by
  rw [Job.run_bind]
  rcases x.run.run session with ⟨e | a, session'⟩
  · simp
  · exact ⟨fun _ => ⟨a, rfl⟩, fun _ => ⟨f a, rfl⟩⟩

/-- `readSchemas` succeeds on `entry :: rest` exactly if `readSchema` succeeds on `entry`, and
`readSchemas` on `rest`. -/
theorem exists_readSchemas_cons_iff {location : String} {entry : Entry} {rest : List Entry}
    {session session₁ : Session} (hgo : Job.checkpoint.run.run session = (.ok (), session₁)) :
    (∃ result, ((readSchemas options location anchors (entry :: rest)).run.run session).1 =
        .ok result) ↔
      (∃ model, (readSchema options anchors entry).outcome = .ok model) ∧
      ∃ more, ((readSchemas options location anchors rest).run.run
        { session₁ with log := session₁.log ++
          (readSchema options anchors entry).skips.map Skip.event }).1 = .ok more := by
  rw [readSchemas, Job.run_bind, hgo]
  dsimp only
  rw [Job.run_bind, Job.run_logAll]
  cases (readSchema options anchors entry).outcome with
  | error cause => simp
  | ok model =>
    dsimp only
    rw [exists_run_bind_pure]
    exact ⟨fun h => ⟨⟨model, rfl⟩, h⟩, fun h => h.2⟩

/-- `readSchemas` succeeds exactly if `readSchema` succeeds on each entry and at least
`entries.length` checks pass. -/
theorem exists_readSchemas_iff {location : String} {entries : List Entry} {session : Session} :
    (∃ result, ((readSchemas options location anchors entries).run.run session).1 = .ok result) ↔
      (∀ e ∈ entries, ∃ model, (readSchema options anchors e).outcome = .ok model) ∧
      ∀ n, session.passes = some n → entries.length ≤ n := by
  induction entries generalizing session with
  | nil => exact ⟨fun _ => ⟨by simp, fun n _ => Nat.zero_le n⟩, fun _ => ⟨{}, rfl⟩⟩
  | cons entry rest ih =>
    have hgo := Job.run_checkpoint session
    rw [List.forall_mem_cons, List.length_cons]
    rcases hpasses : session.passes with _ | _ | n <;> rw [hpasses] at hgo
    · rw [exists_readSchemas_cons_iff hgo, ih]
      simp [hpasses]
    · -- Cancelled in front of the entry.
      rw [readSchemas, Job.run_bind, hgo]
      simp
    · rw [exists_readSchemas_cons_iff hgo, ih]
      simp [and_assoc]

/-- The entries of the schemas of a document. -/
def schemaEntries (tree : Tree) : List Entry :=
  match schemas? tree with
  | some node => node.entries tree.anchors
  | none => []

theorem isEmpty_of_parseTree {raw : ByteArray} {tree : Tree} (h : parseTree raw = .ok tree) :
    raw.isEmpty = false := by
  by_contra hempty
  have hraw : raw = .empty := by
    rw [Bool.not_eq_false, ByteArray.isEmpty, beq_iff_eq] at hempty
    exact ByteArray.size_eq_zero_iff.1 hempty
  have hparse : (parseTree .empty).isOk = false := by decide +kernel
  rw [← hraw, h] at hparse
  cases hparse

theorem exists_readModels_of_go {document : Document} {tree : Tree}
    (hparse : parseTree document.raw = .ok tree) {session session₁ : Session}
    (hgo : Job.checkpoint.run.run session = (.ok (), session₁)) :
    (∃ result, ((readModels options document).run.run session).1 = .ok result) ↔
      (∃ u, checkTree tree = .ok u) ∧ (∃ children, schemas? tree = some (.mapping children)) ∧
      ∃ result, ((readSchemas options document.location tree.anchors
        (schemaEntries tree)).run.run session₁).1 = .ok result := by
  unfold readModels
  rw [Job.run_bind, hgo]
  dsimp only
  rw [isEmpty_of_parseTree hparse, if_neg Bool.false_ne_true, hparse, Job.run_bind, Job.run_pure]
  dsimp only
  cases checkTree tree with
  | error cause => simp
  | ok u =>
    dsimp only
    split
    · rename_i children hchildren
      have hentries : schemaEntries tree = Node.entries tree.anchors (.mapping children) := by
        rw [schemaEntries, schemas?, hchildren]
      rw [hentries]
      exact ⟨fun h => ⟨⟨u, rfl⟩, ⟨children, hchildren⟩, h⟩, fun h => h.2.2⟩
    · rename_i hother
      constructor
      · rintro ⟨_, ⟨⟩⟩
      · rintro ⟨-, ⟨children, hchildren⟩, -⟩
        exact absurd hchildren (hother children)

/-- **`readModels` succeeds** exactly if `checkTree` does, there are schemas, `readSchema` succeeds
on each of them, and enough checks pass. -/
theorem exists_readModels_iff {document : Document} {tree : Tree}
    (hparse : parseTree document.raw = .ok tree) {session : Session} :
    (∃ result, ((readModels options document).run.run session).1 = .ok result) ↔
      (∃ u, checkTree tree = .ok u) ∧ (∃ children, schemas? tree = some (.mapping children)) ∧
      (∀ e ∈ schemaEntries tree, ∃ model, (readSchema options tree.anchors e).outcome = .ok model) ∧
      ∀ n, session.passes = some n → (schemaEntries tree).length < n := by
  have hgo := Job.run_checkpoint session
  rcases hpasses : session.passes with _ | _ | n <;> rw [hpasses] at hgo
  · rw [exists_readModels_of_go hparse hgo, exists_readSchemas_iff]
    simp [hpasses]
  · unfold readModels
    rw [Job.run_bind, hgo]
    simp
  · rw [exists_readModels_of_go hparse hgo, exists_readSchemas_iff]
    simp only [Option.some.injEq, forall_eq', Nat.lt_succ_iff]

/-! ### Documents in another order -/

/-- The trees are related up to the order of keys, and each schema has its properties in the same
order. -/
structure Reordered (tree tree' : Tree) : Prop where
  related : ∃ R, Node.OrderRelation tree.anchors tree'.anchors R ∧ R tree.root tree'.root
  properties : ∀ e ∈ schemaEntries tree, ∀ e' ∈ schemaEntries tree', e.key = e'.key →
    (propertyEntries tree.anchors e.node).map (·.key) =
      (propertyEntries tree'.anchors e'.node).map (·.key)

/-- The results are alike schema by schema, in the order of the schemas. -/
structure ResultsAlike (options : ReaderOptions) (tree tree' : Tree) (r r' : ReadResult) :
    Prop where
  /-- The schemas have the same keys. -/
  keys : ((schemaEntries tree).map (·.key)).Perm ((schemaEntries tree').map (·.key))
  /-- The models are those of the schemas, in order. -/
  models : r.models = (schemaEntries tree).filterMap fun e =>
    (readSchema options tree.anchors e).model?
  models' : r'.models = (schemaEntries tree').filterMap fun e =>
    (readSchema options tree'.anchors e).model?
  /-- The skips are those of the schemas, in order. -/
  skipped : r.skipped = (schemaEntries tree).flatMap fun e =>
    (readSchema options tree.anchors e).skips
  skipped' : r'.skipped = (schemaEntries tree').flatMap fun e =>
    (readSchema options tree'.anchors e).skips
  /-- Schemas with the same key give alike models and equal skips. -/
  groups : ∀ e ∈ schemaEntries tree, ∀ e' ∈ schemaEntries tree', e.key = e'.key →
    Option.Rel Model.Alike (readSchema options tree.anchors e).model?
      (readSchema options tree'.anchors e').model? ∧
    (readSchema options tree.anchors e).skips = (readSchema options tree'.anchors e').skips
  /-- If the schemas are in the same order, the models are alike and the skips equal. -/
  same : (schemaEntries tree).map (·.key) = (schemaEntries tree').map (·.key) →
    List.Forall₂ Model.Alike r.models r'.models ∧ r.skipped = r'.skipped

theorem SchemaReading.Alike.model? {r r' : SchemaReading} (h : r.Alike r') :
    Option.Rel Model.Alike r.model? r'.model? := by
  obtain ⟨skips, outcome⟩ := r
  obtain ⟨skips', outcome'⟩ := r'
  obtain ⟨-, houtcome⟩ := h
  dsimp only at houtcome
  cases houtcome with
  | error => exact .none
  | ok hmodel => exact hmodel

section

variable {tree tree' : Tree}

theorem schemas?_rel {R : Node → Node → Prop}
    (hR : Node.OrderRelation tree.anchors tree'.anchors R) (h : R tree.root tree'.root) :
    Option.Rel R (schemas? tree) (schemas? tree') := by
  unfold schemas?
  have hcomponents := hR.lookup? h "components"
  generalize tree.root.lookup? tree.anchors "components" = m at hcomponents
  generalize tree'.root.lookup? tree'.anchors "components" = n at hcomponents
  cases hcomponents with
  | none => exact .none
  | some hmn => exact hR.lookup? hmn "schemas"

theorem schemaEntries_rel {R : Node → Node → Prop}
    (hR : Node.OrderRelation tree.anchors tree'.anchors R) (h : R tree.root tree'.root) :
    Node.EntriesRel R (schemaEntries tree) (schemaEntries tree') := by
  unfold schemaEntries
  have hschemas := schemas?_rel hR h
  generalize schemas? tree = m at hschemas
  generalize schemas? tree' = n at hschemas
  cases hschemas with
  | none => exact ⟨[], .nil, .rfl⟩
  | some hmn => exact hR.entries hmn

theorem nodup_map_key_schemaEntries (tree : Tree) : ((schemaEntries tree).map (·.key)).Nodup := by
  unfold schemaEntries
  split
  · exact Node.nodup_map_key_entries tree.anchors _
  · exact List.nodup_nil

/-- Schemas of `Reordered` trees with the same key are read alike. -/
theorem Reordered.readSchema_alike (h : Reordered tree tree') (options : ReaderOptions)
    {e e' : Entry} (he : e ∈ schemaEntries tree) (he' : e' ∈ schemaEntries tree')
    (hkey : e.key = e'.key) :
    (readSchema options tree.anchors e).Alike (readSchema options tree'.anchors e') := by
  obtain ⟨R, hR, hroot⟩ := h.related
  have hnode := (schemaEntries_rel hR hroot).rel_of_key_eq (nodup_map_key_schemaEntries tree)
    he he' hkey
  exact OpenApi.readSchema_alike options hR ⟨hkey, hnode⟩ (h.properties e he e' he' hkey)

theorem checkTree_accord {R : Node → Node → Prop}
    (hR : Node.OrderRelation tree.anchors tree'.anchors R) (h : R tree.root tree'.root) :
    Accord Eq (checkTree tree) (checkTree tree') := by
  unfold checkTree
  have hvalue := hR.value h
  generalize tree.root.value tree.anchors = v at hvalue
  generalize tree'.root.value tree'.anchors = v' at hvalue
  cases hvalue with
  | error e e' => exact .error _ _
  | ok halike =>
    dsimp only [Except.mapError, bind, Except.bind]
    rw [halike.toJson?_eq]
    split
    · split_ifs
      · exact .error _ _
      · exact .error _ _
      · exact .ok rfl
    · exact .error _ _

theorem schemas?_isMapping {R : Node → Node → Prop}
    (hR : Node.OrderRelation tree.anchors tree'.anchors R) (h : R tree.root tree'.root) :
    (∃ children, schemas? tree = some (.mapping children)) ↔
      ∃ children, schemas? tree' = some (.mapping children) := by
  have hschemas := schemas?_rel hR h
  generalize schemas? tree = m at hschemas
  generalize schemas? tree' = n at hschemas
  cases hschemas with
  | none => simp
  | @some m n hmn => cases hR.follow m n hmn <;> simp

/-- **`readModels` succeeds on both of two `Reordered` documents or on neither.** -/
theorem Reordered.exists_readModels_iff (h : Reordered tree tree') {document document' : Document}
    (hparse : parseTree document.raw = .ok tree) (hparse' : parseTree document'.raw = .ok tree')
    {session : Session} :
    (∃ result, ((readModels options document).run.run session).1 = .ok result) ↔
      ∃ result, ((readModels options document').run.run session).1 = .ok result := by
  obtain ⟨R, hR, hroot⟩ := h.related
  have hentries := schemaEntries_rel hR hroot
  have hcheck := checkTree_accord hR hroot
  have hlength : (schemaEntries tree).length = (schemaEntries tree').length := by
    simpa using hentries.perm_keys.length_eq
  rw [OpenApi.exists_readModels_iff hparse, OpenApi.exists_readModels_iff hparse',
    schemas?_isMapping hR hroot, hlength]
  refine and_congr ⟨fun ⟨_, hu⟩ => hcheck.exists_right hu, fun ⟨_, hu⟩ => hcheck.exists_left hu⟩
    (and_congr_right fun _ => and_congr_left fun _ =>
      ⟨fun hread e' he' => ?_, fun hread e he => ?_⟩)
  · obtain ⟨e, he, hrel⟩ := hentries.exists_left he'
    obtain ⟨model, hmodel⟩ := hread e he
    exact (h.readSchema_alike options he he' hrel.1).outcome.exists_right hmodel
  · obtain ⟨e', he', hrel⟩ := hentries.exists_right he
    obtain ⟨model, hmodel⟩ := hread e' he'
    exact (h.readSchema_alike options he he' hrel.1).outcome.exists_left hmodel

theorem result_of_readModels {document : Document} (hparse : parseTree document.raw = .ok tree)
    {session : Session} {result : ReadResult}
    (h : ((readModels options document).run.run session).1 = .ok result) :
    result.models = (schemaEntries tree).filterMap (fun e =>
      (readSchema options tree.anchors e).model?) ∧
    result.skipped = (schemaEntries tree).flatMap fun e =>
      (readSchema options tree.anchors e).skips := by
  have hrun : (readModels options document).run.run session =
      (.ok result, ((readModels options document).run.run session).2) := Prod.ext h rfl
  obtain ⟨tree₀, children, session₁, hparse₀, hschemas, -, hread⟩ := readModels_eq_ok hrun
  obtain rfl : tree₀ = tree := Except.ok.inj (hparse₀.symm.trans hparse)
  have hentries : schemaEntries tree₀ = Node.entries tree₀.anchors (.mapping children) := by
    rw [schemaEntries, hschemas]
  rw [hentries]
  exact ⟨(readSchemas_eq_ok hread).2.1, (readSchemas_eq_ok hread).2.2.1⟩

theorem forall₂_filterMap {α β γ δ : Type} {S : α → β → Prop} {T : γ → δ → Prop}
    {f : α → Option γ} {g : β → Option δ} {xs : List α} {ys : List β} (h : List.Forall₂ S xs ys)
    (hfg : ∀ x ∈ xs, ∀ y ∈ ys, S x y → Option.Rel T (f x) (g y)) :
    List.Forall₂ T (xs.filterMap f) (ys.filterMap g) := by
  induction h with
  | nil => exact .nil
  | @cons x y xs ys hxy _ ih =>
    have hrest := ih fun x hx y hy =>
      hfg x (List.mem_cons_of_mem _ hx) y (List.mem_cons_of_mem _ hy)
    have hhead := hfg x List.mem_cons_self y List.mem_cons_self hxy
    rw [List.filterMap_cons, List.filterMap_cons]
    generalize f x = c at hhead
    generalize g y = d at hhead
    cases hhead with
    | none => exact hrest
    | some hcd => exact .cons hcd hrest

theorem flatMap_eq_of_forall₂ {α β γ : Type} {S : α → β → Prop} {f : α → List γ} {g : β → List γ}
    {xs : List α} {ys : List β} (h : List.Forall₂ S xs ys)
    (hfg : ∀ x ∈ xs, ∀ y ∈ ys, S x y → f x = g y) : xs.flatMap f = ys.flatMap g := by
  induction h with
  | nil => rfl
  | @cons x y xs ys hxy _ ih =>
    rw [List.flatMap_cons, List.flatMap_cons, hfg x List.mem_cons_self y List.mem_cons_self hxy,
      ih fun x hx y hy => hfg x (List.mem_cons_of_mem _ hx) y (List.mem_cons_of_mem _ hy)]

/-- **The order of keys matters only where it should.**  On two documents whose trees are
`Reordered`, `readModels` fails both times or gives `ResultsAlike`: schemas with the same key give
alike models and equal skips, in the order in which each document has its schemas. -/
theorem readModels_reordered {document document' : Document}
    (hparse : parseTree document.raw = .ok tree) (hparse' : parseTree document'.raw = .ok tree')
    (h : Reordered tree tree') (options : ReaderOptions) (session : Session) :
    Accord (ResultsAlike options tree tree') ((readModels options document).run.run session).1
      ((readModels options document').run.run session).1 := by
  obtain ⟨R, hR, hroot⟩ := h.related
  have hentries := schemaEntries_rel hR hroot
  refine .of_iff (fun r hr => (h.exists_readModels_iff hparse hparse').1 ⟨r, hr⟩)
    (fun r' hr' => (h.exists_readModels_iff hparse hparse').2 ⟨r', hr'⟩) fun r r' hr hr' => ?_
  obtain ⟨hmodels, hskipped⟩ := result_of_readModels hparse hr
  obtain ⟨hmodels', hskipped'⟩ := result_of_readModels hparse' hr'
  refine ⟨hentries.perm_keys, hmodels, hmodels', hskipped, hskipped', ?_, fun hkeys => ?_⟩
  · intro e he e' he' hkey
    have halike := h.readSchema_alike options he he' hkey
    exact ⟨halike.model?, halike.skips⟩
  · have horder := hentries.forall₂ (nodup_map_key_schemaEntries tree') hkeys
    rw [hmodels, hmodels', hskipped, hskipped']
    refine ⟨forall₂_filterMap horder fun e he e' he' hrel => ?_,
      flatMap_eq_of_forall₂ horder fun e he e' he' hrel => ?_⟩
    · exact (h.readSchema_alike options he he' hrel.1).model?
    · exact (h.readSchema_alike options he he' hrel.1).skips

end

/-! ### Two documents -/

/-- Nodes that differ by swapping the two keys of some mappings. -/
inductive Swapped : Node → Node → Prop
  | same (n : Node) : Swapped n n
  | under (key : String) {n n' : Node} (h : Swapped n n') :
      Swapped (.mapping [.ofText key, n]) (.mapping [.ofText key, n'])
  | swap {key key' : String} {m m' n n' : Node} (hne : key ≠ key') (hm : Swapped m m')
      (hn : Swapped n n') :
      Swapped (.mapping [.ofText key, m, .ofText key', n])
        (.mapping [.ofText key', n', .ofText key, m'])

theorem pairsRel_refl {R : Node → Node → Prop} (hR : ∀ n, R n n) (ps : List (Node × Node)) :
    Node.PairsRel anchors R ps ps :=
  ⟨ps, List.forall₂_same.2 fun p _ => ⟨hR p.1, hR p.2⟩, .rfl, .inl rfl⟩

/-- `Swapped` nodes are equal, or mappings whose pairs are related. -/
theorem Swapped.eq_or_mapping {m n : Node} (h : Swapped m n) :
    m = n ∨ ∃ children children', m = .mapping children ∧ n = .mapping children' ∧
      Node.PairsRel #[] Swapped (Node.pairs children) (Node.pairs children') := by
  cases h with
  | same => exact .inl rfl
  | @under key n n' h =>
    refine .inr ⟨_, _, rfl, rfl, [(.ofText key, n')], ?_, .rfl, .inl rfl⟩
    exact .cons ⟨.same _, h⟩ .nil
  | @swap key key' m m' n n' hne hm hn =>
    refine .inr ⟨_, _, rfl, rfl, [(.ofText key, m'), (.ofText key', n')], ?_, .swap _ _ _, .inr ?_⟩
    · exact .cons ⟨.same _, hm⟩ (.cons ⟨.same _, hn⟩ .nil)
    · show [key', key].Nodup
      simpa using Ne.symm hne

theorem orderRelation_swapped : Node.OrderRelation #[] #[] Swapped where
  scalar h := by
    rcases h.eq_or_mapping with rfl | ⟨_, _, hm, -⟩
    · exact ⟨_, rfl⟩
    · cases hm
  sequence {items n} h := by
    rcases h.eq_or_mapping with rfl | ⟨_, _, hm, -⟩
    · exact ⟨items, rfl, List.forall₂_same.2 fun n _ => .same n⟩
    · cases hm
  mapping {children n} h := by
    rcases h.eq_or_mapping with rfl | ⟨_, children', hm, rfl, hpairs⟩
    · exact ⟨children, rfl, pairsRel_refl .same _⟩
    · cases hm
      exact ⟨children', rfl, hpairs⟩
  document {content n} h := by
    rcases h.eq_or_mapping with rfl | ⟨_, _, hm, -⟩
    · exact ⟨content, rfl, List.forall₂_same.2 fun n _ => .same n⟩
    · cases hm
  anchored {a n} h := by
    rcases h.eq_or_mapping with rfl | ⟨_, _, hm, -⟩
    · exact ⟨a, rfl, .none⟩
    · cases hm

/-- An object with two fields, in this order or swapped. -/
def swapObject (swapped : Bool) (first second : String × Json) : Json :=
  .object (if swapped then [second, first] else [first, second])

/-- A document with an object schema `A` and an empty one.  The keys of the document, of its
schemas, of `A` and of its property are in this order or swapped. -/
def swapJson (swapped : Bool) : Json :=
  let property := swapObject swapped ("type", .string "string") ("minLength", .number "1")
  let model := swapObject swapped ("type", .string "object")
    ("properties", .object [("p", property)])
  let schemas := swapObject swapped ("A", model) ("B", .object [])
  swapObject swapped ("openapi", .string "3") ("components", .object [("schemas", schemas)])

/-- The text of `swapJson`. -/
def swapDocument (swapped : Bool) : Document where
  raw := (if swapped then
      r#"{"components":{"schemas":{"B":{},"A":"# ++
        r#"{"properties":{"p":{"minLength":1,"type":"string"}},"type":"object"}}},"# ++
        r#""openapi":"3"}"#
    else
      r#"{"openapi":"3","components":{"schemas":{"A":"# ++
        r#"{"type":"object","properties":{"p":{"type":"string","minLength":1}}},"# ++
        r#""B":{}}}}"#
    ).toUTF8

/-- The mapping of `swapObject`. -/
def swapMapping (swapped : Bool) (first second : String × Node) : Node :=
  .mapping <|
    if swapped then [.ofText second.1, second.2, .ofText first.1, first.2]
    else [.ofText first.1, first.2, .ofText second.1, second.2]

/-- The property `p` of `swapJson`. -/
def swapProperty (swapped : Bool) : Node :=
  swapMapping swapped ("type", .ofText "string") ("minLength", .scalar ⟨.int, "1", 0⟩)

/-- The schema `A` of `swapJson`. -/
def swapModel (swapped : Bool) : Node :=
  swapMapping swapped ("type", .ofText "object")
    ("properties", .mapping [.ofText "p", swapProperty swapped])

/-- The tree of `swapJson`. -/
def swapTree (swapped : Bool) : Tree where
  root := swapMapping swapped ("openapi", .ofText "3") ("components",
    .mapping [.ofText "schemas", swapMapping swapped ("A", swapModel swapped) ("B", .mapping [])])

theorem spells_pair {name name' ns ns' cs cs' : List Char} {v v' : Json}
    (hname : Json.SpellsString name ns) (hname' : Json.SpellsString name' ns')
    (hv : Json.Spells (.value v) cs) (hv' : Json.Spells (.value v') cs') :
    Json.Spells (.value (.object [(String.ofList name, v), (String.ofList name', v')]))
      ('{' :: '"' :: (ns ++ ':' :: (cs ++ ',' :: '"' :: (ns' ++ ':' :: (cs' ++ ['}']))))) := by
  have hgap : Json.IsGap [] := nofun
  exact .object (.field hgap hname hgap hgap hv hgap (.lastField hgap hname' hgap hgap hv' hgap))

theorem isText_swapDocument (swapped : Bool) :
    (swapJson swapped).IsText (Text.Utf8.decode (swapDocument swapped).raw.toList) := by
  have hgap : Json.IsGap [] := nofun
  let names := ["A", "B", "p", "type", "minLength", "properties", "schemas", "components",
    "openapi", "string", "object", "3"]
  have hname : ∀ name ∈ names, Json.SpellsString name.toList (name.toList ++ ['"']) := by
    have hall : ∀ name ∈ names, name.toList.all
        (fun c => decide (0x20 ≤ c.toNat) && c != '"' && c != '\\') = true := by decide
    exact fun name hmem => Json.spellsString_of_all (hall name hmem)
  have htype := hname "type" (by decide)
  have hstring := Json.Spells.string (hname "string" (by decide))
  have hobject := Json.Spells.string (hname "object" (by decide))
  have hversion := Json.Spells.string (hname "3" (by decide))
  have hempty := Json.Spells.emptyObject hgap
  have hnumber := Json.Spells.number <|
    @Json.IsNumeral.mk [] ['1'] [] [] (.inl rfl) (.inr ⟨Json.isDigits_singleton rfl, by decide⟩)
      (.inl rfl) (.inl rfl)
  cases swapped with
  | false =>
    have hproperty := spells_pair htype (hname "minLength" (by decide)) hstring hnumber
    have hproperties := Json.Spells.object <|
      .lastField hgap (hname "p" (by decide)) hgap hgap hproperty hgap
    have hmodel := spells_pair htype (hname "properties" (by decide)) hobject hproperties
    have hmodels := spells_pair (hname "A" (by decide)) (hname "B" (by decide)) hmodel hempty
    have hschemas := Json.Spells.object <|
      .lastField hgap (hname "schemas" (by decide)) hgap hgap hmodels hgap
    have hroot := spells_pair (hname "openapi" (by decide)) (hname "components" (by decide))
      hversion hschemas
    exact ⟨[], _, [], hgap, hroot, hgap, by decide +kernel⟩
  | true =>
    have hproperty := spells_pair (hname "minLength" (by decide)) htype hnumber hstring
    have hproperties := Json.Spells.object <|
      .lastField hgap (hname "p" (by decide)) hgap hgap hproperty hgap
    have hmodel := spells_pair (hname "properties" (by decide)) htype hproperties hobject
    have hmodels := spells_pair (hname "B" (by decide)) (hname "A" (by decide)) hempty hmodel
    have hschemas := Json.Spells.object <|
      .lastField hgap (hname "schemas" (by decide)) hgap hgap hmodels hgap
    have hroot := spells_pair (hname "components" (by decide)) (hname "openapi" (by decide))
      hschemas hversion
    exact ⟨[], _, [], hgap, hroot, hgap, by decide +kernel⟩

theorem parseTree_swapDocument (swapped : Bool) :
    parseTree (swapDocument swapped).raw = .ok (swapTree swapped) := by
  have hnesting : (swapJson swapped).nesting ≤ Json.maxNesting := by cases swapped <;> decide
  have hparse := Json.parse?_of_isText (isText_swapDocument swapped) hnesting
  cases swapped <;> exact parseTree_of_mapping rfl hparse rfl

theorem swapped_swapTree : Swapped (swapTree false).root (swapTree true).root := by
  have hproperty : Swapped (swapProperty false) (swapProperty true) :=
    .swap (by decide) (.same _) (.same _)
  have hmodel : Swapped (swapModel false) (swapModel true) :=
    .swap (by decide) (.same _) (.under "p" hproperty)
  exact .swap (by decide) (.same _) (.under "schemas" (.swap (by decide) hmodel (.same _)))

theorem propertyEntries_swapModel (swapped : Bool) :
    (propertyEntries #[] (swapModel swapped)).map (·.key) = ["p"] := by
  cases swapped <;> rfl

theorem reordered_swapTree : Reordered (swapTree false) (swapTree true) where
  related := ⟨Swapped, orderRelation_swapped, swapped_swapTree⟩
  properties e he e' he' hkey := by
    have hentries : schemaEntries (swapTree false) =
      [⟨"A", swapModel false⟩, ⟨"B", .mapping []⟩] := rfl
    have hentries' : schemaEntries (swapTree true) =
      [⟨"B", .mapping []⟩, ⟨"A", swapModel true⟩] := rfl
    show (propertyEntries #[] e.node).map _ = (propertyEntries #[] e'.node).map _
    rw [hentries, List.mem_pair] at he
    rw [hentries', List.mem_pair] at he'
    rcases he with rfl | rfl <;> rcases he' with rfl | rfl
    · exact absurd hkey (by decide)
    · rw [propertyEntries_swapModel, propertyEntries_swapModel]
    · rfl
    · exact absurd hkey (by decide)

/-- `swapDocument false` and `swapDocument true` give alike models `A`, and the empty schema is
skipped after it or before it. -/
theorem readModels_reordered_swapDocument :
    (((readModels {} (swapDocument false)).run.run {}).1.toOption.map fun r =>
      r.models.map (·.name)) = some ["A"] ∧
      Accord (ResultsAlike {} (swapTree false) (swapTree true))
        ((readModels {} (swapDocument false)).run.run {}).1
        ((readModels {} (swapDocument true)).run.run {}).1 :=
  ⟨by decide +kernel, readModels_reordered (parseTree_swapDocument false)
    (parseTree_swapDocument true) reordered_swapTree {} {}⟩

end OpenApi

end SchemaPress
