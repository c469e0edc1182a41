import SchemaPress.OpenApi.Reading
import SchemaPress.Proofs.Model.Properties
import SchemaPress.Proofs.Node.Entries
import SchemaPress.Proofs.Node.Graph
import SchemaPress.Proofs.Session

/-!
# Every entry of a document is accounted for

Reading goes entry by entry.  Each entry of `components.schemas` becomes a model or is skipped, and
each property of a schema that becomes a model is kept or skipped (`Accounted`); nothing is lost,
nothing is told twice, and the order of the document stays (`readModels_accountsFor`).
What an entry gives depends on its own part of the document only (`readSchema_congr`).
-/

namespace SchemaPress.OpenApi

variable {options : ReaderOptions} {anchors : Anchors}

/-- The model of a reading whose outcome is one. -/
def SchemaReading.model? (r : SchemaReading) : Option Model :=
  match r.outcome with
  | .ok model => model
  | .error _ => none

/-- The node at `components.schemas`. -/
def schemas? (tree : Tree) : Option Node :=
  (tree.root.lookup? tree.anchors "components").bind fun c => c.lookup? tree.anchors "schemas"

/-- The entries of the node at `properties`, none if there is no such node. -/
def propertyEntries (anchors : Anchors) (node : Node) : List Entry :=
  match node.lookup? anchors "properties" with
  | some properties => properties.entries anchors
  | none => []

theorem nodup_map_key_propertyEntries (anchors : Anchors) (node : Node) :
    ((propertyEntries anchors node).map (·.key)).Nodup := by
  unfold propertyEntries
  split
  · exact Node.nodup_map_key_entries anchors _
  · exact List.nodup_nil

/-! ### Properties -/

/-- `readProperty` gives a property with the key as its name, or a skip with the key as its
property. -/
theorem readProperty_eq_ok {schema : String} {parent : Metadata} {entry : Entry}
    {r : Property ⊕ Skip} (h : readProperty options anchors schema parent entry = .ok r) :
    (∃ p, r = .inl p ∧ p.name = entry.key ∧ p.required = parent.isRequired entry.key) ∨
    (∃ skip, r = .inr skip ∧ skip.schema = schema ∧ skip.property = entry.key) := by
  unfold readProperty at h
  rcases hdecode : decodeSchema anchors entry.node with cause | _ | ⟨target | s, raw⟩ <;>
    rw [hdecode] at h
  · cases h
  · exact .inr ⟨_, (Except.ok.inj h).symm, rfl, rfl⟩
  · exact .inr ⟨_, (Except.ok.inj h).symm, rfl, rfl⟩
  · dsimp only [bind, Except.bind] at h
    split at h
    · exact .inr ⟨_, (Except.ok.inj h).symm, rfl, rfl⟩
    · exact .inl ⟨_, (Except.ok.inj h).symm, rfl, rfl⟩

/-- `kept` and `skips` together are the properties of `schema` with the given keys. -/
structure Divided (schema : String) (required : List String) (keys : List String)
    (kept : List Property) (skips : List Skip) : Prop where
  /-- The properties kept are in the order of `keys`. -/
  kept_sublist : (kept.map (·.name)).Sublist keys
  /-- The properties skipped are in the order of `keys`. -/
  skips_sublist : (skips.map (·.property)).Sublist keys
  /-- Each key is the name of one property kept or the property of one skip, but not both. -/
  once : ∀ key ∈ keys, (kept.map (·.name)).count key + (skips.map (·.property)).count key = 1
  /-- Each skip has `schema` as its schema. -/
  schema_eq : ∀ skip ∈ skips, skip.schema = schema
  /-- A property kept is required if and only if `required` has its name. -/
  required_eq : ∀ p ∈ kept, p.required = required.contains p.name

namespace Divided

variable {schema : String} {required keys : List String} {kept : List Property} {skips : List Skip}

/-- `once` for a key in front of others, which it is not one of. -/
theorem once_cons {key : String} {names others : List String} (hkey : key ∉ keys)
    (hnames : names.Sublist keys) (hothers : others.Sublist keys)
    (honce : ∀ k ∈ keys, names.count k + others.count k = 1) :
    ∀ k ∈ key :: keys, (key :: names).count k + others.count k = 1 := by
  intro k hk
  rcases List.mem_cons.mp hk with rfl | hk
  · rw [List.count_cons_self, List.count_eq_zero_of_not_mem fun hmem => hkey (hnames.subset hmem),
      List.count_eq_zero_of_not_mem fun hmem => hkey (hothers.subset hmem)]
  · have hne : key ≠ k := fun heq => hkey (heq ▸ hk)
    rw [List.count_cons_of_ne hne, honce k hk]

theorem keep (h : Divided schema required keys kept skips) {p : Property} (hp : p.name ∉ keys)
    (hrequired : p.required = required.contains p.name) :
    Divided schema required (p.name :: keys) (p :: kept) skips where
  kept_sublist := h.kept_sublist.cons_cons _
  skips_sublist := h.skips_sublist.cons _
  once := once_cons hp h.kept_sublist h.skips_sublist h.once
  schema_eq := h.schema_eq
  required_eq q hq := by
    rcases List.mem_cons.mp hq with rfl | hq
    · exact hrequired
    · exact h.required_eq q hq

theorem skip (h : Divided schema required keys kept skips) {skip : Skip}
    (hskip : skip.property ∉ keys) (hschema : skip.schema = schema) :
    Divided schema required (skip.property :: keys) kept (skip :: skips) where
  kept_sublist := h.kept_sublist.cons _
  skips_sublist := h.skips_sublist.cons_cons _
  once k hk := by
    rw [Nat.add_comm]
    refine once_cons hskip h.skips_sublist h.kept_sublist (fun k hk => ?_) k hk
    rw [Nat.add_comm, h.once k hk]
  schema_eq other hother := by
    rcases List.mem_cons.mp hother with rfl | hother
    · exact hschema
    · exact h.schema_eq other hother
  required_eq := h.required_eq

end Divided

/-- If `readProperties` has no cause of failure and the keys are distinct, its results are
`Divided`. -/
theorem readProperties_divided {schema : String} {parent : Metadata} {entries : List Entry}
    (h : (readProperties options anchors schema parent entries).cause = none)
    (hnodup : (entries.map (·.key)).Nodup) :
    Divided schema parent.required (entries.map (·.key))
      (readProperties options anchors schema parent entries).kept
      (readProperties options anchors schema parent entries).skips := by
  induction entries with
  | nil => exact ⟨.slnil, .slnil, by simp, by simp [readProperties], by simp [readProperties]⟩
  | cons entry rest ih =>
    rw [List.map_cons] at hnodup ⊢
    obtain ⟨hfresh, hnodup⟩ := List.nodup_cons.mp hnodup
    rw [readProperties] at h ⊢
    rcases hread : readProperty options anchors schema parent entry with cause | r <;>
      rw [hread] at h
    · cases h
    -- The key is not among those to come, so it is kept or skipped only here.
    rcases readProperty_eq_ok hread with ⟨p, rfl, hname, hrequired⟩ | ⟨skip, rfl, hschema, hkey⟩
    · rw [← hname] at hfresh hrequired ⊢
      exact (ih h hnodup).keep hfresh hrequired
    · rw [← hkey] at hfresh ⊢
      exact (ih h hnodup).skip hfresh hschema

/-! ### Schemas -/

/-- What `readSchema` may give for `entry`: a model whose properties are `Divided`, or no model and
one skip, whose property is empty. -/
inductive Accounted (anchors : Anchors) (entry : Entry) : Option Model → List Skip → Prop where
  | model {m : Model} {skips : List Skip} {s : Schema} {raw : Value}
      (named : Text.isBlankText entry.key = false) (name_eq : m.name = entry.key)
      (decoded : decodeSchema anchors entry.node = .ok (some (.schema s, raw)))
      (keys_nodup : ((propertyEntries anchors entry.node).map (·.key)).Nodup)
      (divided : Divided entry.key s.required ((propertyEntries anchors entry.node).map (·.key))
        m.properties.toList skips) :
      Accounted anchors entry (some m) skips
  | skip {skip : Skip} (schema_eq : skip.schema = entry.key) (property_eq : skip.property = "") :
      Accounted anchors entry none [skip]

/-- `readSchema` from the decoded schema of an object on. -/
def readObject (options : ReaderOptions) (anchors : Anchors) (entry : Entry) (s : Schema)
    (raw : Value) : SchemaReading :=
  let read := readProperties options anchors entry.key (s.metadata raw)
    (propertyEntries anchors entry.node)
  match read.cause with
  | some cause => { skips := read.skips, outcome := .error cause }
  | none =>
    match Model.build entry.key (s.metadata raw) read.kept with
    | .ok model => { skips := read.skips, outcome := .ok (some model) }
    | .error .unnamed => { skips := read.skips, outcome := .error .unnamed }

theorem readSchema_eq (options : ReaderOptions) (anchors : Anchors) (entry : Entry) :
    readSchema options anchors entry =
      if Text.isBlankText entry.key then .skip entry.key .unnamed
      else
        match decodeSchema anchors entry.node with
        | .error cause => { outcome := .error cause }
        | .ok none => .skip entry.key .notObject
        | .ok (some (.reference target, _)) => .skip entry.key .reference target
        | .ok (some (.schema s, raw)) =>
          if s.properTypes != ["object"] then .skip entry.key .notObject
          else readObject options anchors entry s raw := rfl

/-- `readSchema` skips `entry.key`, fails without skips, or is `readObject`. -/
theorem readSchema_cases (options : ReaderOptions) (anchors : Anchors) (entry : Entry) :
    (∃ reason target, readSchema options anchors entry = .skip entry.key reason target) ∨
    (∃ cause, readSchema options anchors entry = { outcome := .error cause }) ∨
    (∃ s raw, Text.isBlankText entry.key = false ∧
      decodeSchema anchors entry.node = .ok (some (.schema s, raw)) ∧
      readSchema options anchors entry = readObject options anchors entry s raw) := by
  rw [readSchema_eq]
  by_cases hblank : Text.isBlankText entry.key
  · rw [if_pos hblank]
    exact .inl ⟨_, _, rfl⟩
  rw [if_neg hblank]
  rcases decodeSchema anchors entry.node with cause | _ | ⟨target | s, raw⟩
  · exact .inr (.inl ⟨_, rfl⟩)
  · exact .inl ⟨_, _, rfl⟩
  · exact .inl ⟨_, _, rfl⟩
  · by_cases htypes : (s.properTypes != ["object"]) = true
    · exact .inl ⟨_, _, if_pos htypes⟩
    · exact .inr (.inr ⟨s, raw, Bool.eq_false_iff.mpr hblank, rfl, if_neg htypes⟩)

/-- If `readObject` succeeds, its model and skips are `Accounted`. -/
theorem readObject_accounted {entry : Entry} {s : Schema} {raw : Value} {model : Option Model}
    (hblank : Text.isBlankText entry.key = false)
    (hdecode : decodeSchema anchors entry.node = .ok (some (.schema s, raw)))
    (h : (readObject options anchors entry s raw).outcome = .ok model) :
    Accounted anchors entry model (readObject options anchors entry s raw).skips := by
  have hnodup := nodup_map_key_propertyEntries anchors entry.node
  have hdivided := fun hcause =>
    @readProperties_divided options anchors entry.key (s.metadata raw) _ hcause hnodup
  unfold readObject at h ⊢
  rcases hread : readProperties options anchors entry.key (s.metadata raw)
    (propertyEntries anchors entry.node) with ⟨kept, skips, cause⟩
  rw [hread] at h hdivided
  cases cause with
  | some cause => cases h
  | none =>
    have hbuild : Model.build entry.key (s.metadata raw) kept =
        .ok ⟨entry.key, s.metadata raw, .ofList kept⟩ := by
      unfold Model.build
      rw [hblank]
      rfl
    simp only [hbuild] at h ⊢
    obtain rfl := Except.ok.inj h
    have hkept : (Properties.ofList kept).toList = kept :=
      Properties.toList_ofList ((hdivided rfl).kept_sublist.nodup hnodup)
    refine .model hblank rfl hdecode hnodup ?_
    rw [hkept]
    exact hdivided rfl

/-- **If `readSchema` succeeds, its model and skips are `Accounted`.** -/
theorem readSchema_accounted {entry : Entry} {model : Option Model}
    (h : (readSchema options anchors entry).outcome = .ok model) :
    Accounted anchors entry model (readSchema options anchors entry).skips := by
  rcases readSchema_cases options anchors entry with
    ⟨reason, target, heq⟩ | ⟨cause, heq⟩ | ⟨s, raw, hblank, hdecode, heq⟩ <;> rw [heq] at h ⊢
  · obtain rfl := Except.ok.inj h
    exact .skip rfl rfl
  · cases h
  · exact readObject_accounted hblank hdecode h

/-! ### One part of a document -/

/-- `decodeSchema` respects every `GraphRelation`. -/
theorem decodeSchema_congr {anchors' : Anchors} {R : Node → Node → Prop}
    (hR : Node.GraphRelation anchors anchors' R) {m n : Node} (h : R m n) :
    decodeSchema anchors m = decodeSchema anchors' n := by
  unfold decodeSchema
  rw [hR.value_eq h]
  have hresolve := hR.resolve? h
  generalize m.resolve? anchors = m' at hresolve
  generalize n.resolve? anchors' = n' at hresolve
  cases hresolve with
  | none => rfl
  | some hmn => cases hR.sameForm hmn <;> rfl

theorem readProperties_congr {anchors' : Anchors} {R : Node → Node → Prop}
    (hR : Node.GraphRelation anchors anchors' R) (schema : String) (parent : Metadata)
    {es es' : List Entry} (h : List.Forall₂ (Node.EntryRel R) es es') :
    readProperties options anchors schema parent es =
      readProperties options anchors' schema parent es' := by
  induction h with
  | nil => rfl
  | @cons e e' _ _ he _ ih =>
    have hread : readProperty options anchors schema parent e =
        readProperty options anchors' schema parent e' := by
      unfold readProperty
      rw [decodeSchema_congr hR he.2, he.1]
    rw [readProperties, readProperties, hread, he.1, ih]

theorem propertyEntries_rel {anchors' : Anchors} {R : Node → Node → Prop}
    (hR : Node.GraphRelation anchors anchors' R) {m n : Node} (h : R m n) :
    List.Forall₂ (Node.EntryRel R) (propertyEntries anchors m) (propertyEntries anchors' n) := by
  unfold propertyEntries
  have hlookup := hR.lookup? h "properties"
  generalize m.lookup? anchors "properties" = m' at hlookup
  generalize n.lookup? anchors' "properties" = n' at hlookup
  cases hlookup with
  | none => exact .nil
  | some hmn => exact hR.entries hmn

/-- **`readSchema` depends on `entry.key` and the graph of `entry.node` only**, not on the rest of
the document. -/
theorem readSchema_congr {anchors' : Anchors} {entry entry' : Entry} (hkey : entry'.key = entry.key)
    (h : Node.SameGraph anchors entry.node anchors' entry'.node) :
    readSchema options anchors' entry' = readSchema options anchors entry := by
  obtain ⟨R, hR, hnode⟩ := h
  have hobject : ∀ s raw,
      readObject options anchors' entry' s raw = readObject options anchors entry s raw := by
    intro s raw
    unfold readObject
    rw [hkey, ← readProperties_congr hR entry.key (s.metadata raw) (propertyEntries_rel hR hnode)]
  rw [readSchema_eq, readSchema_eq, hkey, ← decodeSchema_congr hR hnode]
  simp only [hobject]

/-! ### Documents -/

/-- If `readSchemas` succeeds on `entry :: rest`, so does `readSchema` on `entry`; the log gets the
events of its skips, and `readSchemas` succeeds on `rest`. -/
theorem readSchemas_cons_eq_ok {location : String} {entry : Entry} {rest : List Entry}
    {session session' : Session} {result : ReadResult}
    (h : (readSchemas options location anchors (entry :: rest)).run.run session =
      (.ok result, session')) :
    ∃ model more session₁,
      (readSchema options anchors entry).outcome = .ok model ∧
      session₁.log = session.log ++ (readSchema options anchors entry).skips.map Skip.event ∧
      (readSchemas options location anchors rest).run.run session₁ = (.ok more, session') ∧
      result.models = model.toList ++ more.models ∧
      result.skipped = (readSchema options anchors entry).skips ++ more.skipped := by
  rw [readSchemas] at h
  -- A checkpoint, the warnings, and then the entries to come.
  obtain ⟨_, session₀, hcheck, h⟩ := Job.run_bind_eq_ok h
  obtain ⟨_, session₁, hlog, h⟩ := Job.run_bind_eq_ok h
  have hlog₁ : session₁.log =
      session.log ++ (readSchema options anchors entry).skips.map Skip.event := by
    rw [Job.run_logAll] at hlog
    rw [← (Prod.mk.inj hlog).2, Job.run_checkpoint_eq_ok hcheck]
  cases houtcome : (readSchema options anchors entry).outcome with
  | error cause =>
    rw [houtcome] at h
    cases h
  | ok model =>
    rw [houtcome] at h
    obtain ⟨more, session₂, hmore, h⟩ := Job.run_bind_eq_ok h
    obtain ⟨hresult, rfl⟩ := Prod.mk.inj h
    obtain rfl := Except.ok.inj hresult
    exact ⟨model, more, session₁, rfl, hlog₁, hmore, rfl, rfl⟩

/-- If `readSchemas` succeeds, its models and skips are those of `readSchema` on `entries`, in
order, and the log gets the events of the skips. -/
theorem readSchemas_eq_ok {location : String} {entries : List Entry} {session session' : Session}
    {result : ReadResult}
    (h : (readSchemas options location anchors entries).run.run session = (.ok result, session')) :
    (∀ e ∈ entries, Accounted anchors e (readSchema options anchors e).model?
      (readSchema options anchors e).skips) ∧
    result.models = entries.filterMap (fun e => (readSchema options anchors e).model?) ∧
    result.skipped = entries.flatMap (fun e => (readSchema options anchors e).skips) ∧
    session'.log = session.log ++ result.skipped.map Skip.event := by
  induction entries generalizing session result with
  | nil =>
    obtain ⟨hresult, rfl⟩ := Prod.mk.inj h
    obtain rfl := Except.ok.inj hresult
    exact ⟨by simp, rfl, rfl, (List.append_nil _).symm⟩
  | cons entry rest ih =>
    obtain ⟨model, more, session₁, houtcome, hlog, hmore, hmodels, hskipped⟩ :=
      readSchemas_cons_eq_ok h
    obtain ⟨hrest, hrestModels, hrestSkipped, hrestLog⟩ := ih hmore
    have hmodel : (readSchema options anchors entry).model? = model := by
      rw [SchemaReading.model?, houtcome]
    refine ⟨?_, ?_, ?_, ?_⟩
    · intro e he
      rcases List.mem_cons.mp he with rfl | he
      · rw [hmodel]
        exact readSchema_accounted houtcome
      · exact hrest e he
    · rw [hmodels, hrestModels, List.filterMap_cons, hmodel]
      cases model <;> rfl
    · rw [hskipped, hrestSkipped, List.flatMap_cons]
    · rw [hrestLog, hlog, hskipped, List.map_append, List.append_assoc]

/-- If `readModels` succeeds, the document has a mapping of schemas, and `readSchemas` succeeds on
its entries. -/
theorem readModels_eq_ok {document : Document} {session session' : Session} {result : ReadResult}
    (h : (readModels options document).run.run session = (.ok result, session')) :
    ∃ tree children session₁,
      parseTree document.raw = .ok tree ∧ schemas? tree = some (.mapping children) ∧
      session₁.log = session.log ∧
      (readSchemas options document.location tree.anchors
        (Node.entries tree.anchors (.mapping children))).run.run session₁ =
        (.ok result, session') := by
  unfold readModels at h
  obtain ⟨_, session₁, hcheck, h⟩ := Job.run_bind_eq_ok h
  have hlog : session₁.log = session.log := by rw [Job.run_checkpoint_eq_ok hcheck]
  dsimp only at h
  split at h
  · cases h
  cases hparse : parseTree document.raw with
  | error cause =>
    rw [hparse] at h
    cases h
  | ok tree =>
    rw [hparse] at h
    obtain ⟨_, _, htree, h⟩ := Job.run_bind_eq_ok h
    rw [Job.run_pure] at htree
    cases htree
    cases hcheckTree : checkTree tree with
    | error cause =>
      rw [hcheckTree] at h
      cases h
    | ok =>
      rw [hcheckTree] at h
      dsimp only at h
      split at h
      · rename_i children hchildren
        exact ⟨tree, children, session₁, rfl, hchildren, hlog, h⟩
      · cases h

/-- `result` is what `readSchema` gives for each of `entries`, in order. -/
structure AccountsFor (options : ReaderOptions) (anchors : Anchors) (entries : List Entry)
    (result : ReadResult) : Prop where
  /-- The keys of the entries are distinct. -/
  keys_nodup : (entries.map (·.key)).Nodup
  /-- The models are those of `readSchema`. -/
  models_eq : result.models = entries.filterMap fun e => (readSchema options anchors e).model?
  /-- The skips are those of `readSchema`. -/
  skipped_eq : result.skipped = entries.flatMap fun e => (readSchema options anchors e).skips
  /-- The model and the skips of each entry are `Accounted`. -/
  accounted : ∀ e ∈ entries, Accounted anchors e (readSchema options anchors e).model?
    (readSchema options anchors e).skips
  /-- An entry of another document with the same key and graph gives the same. -/
  independent : ∀ e ∈ entries, ∀ (anchors' : Anchors) (e' : Entry), e'.key = e.key →
    Node.SameGraph anchors e.node anchors' e'.node →
    readSchema options anchors' e' = readSchema options anchors e
  /-- The names of the models are distinct. -/
  names_nodup : (result.models.map (·.name)).Nodup

/-- The names of the models are a sublist of the keys of the entries. -/
theorem map_name_models_sublist {entries : List Entry}
    (h : ∀ e ∈ entries, Accounted anchors e (readSchema options anchors e).model?
      (readSchema options anchors e).skips) :
    ((entries.filterMap fun e => (readSchema options anchors e).model?).map (·.name)).Sublist
      (entries.map (·.key)) := by
  induction entries with
  | nil => exact .slnil
  | cons e rest ih =>
    have hrest := ih fun e he => h e (List.mem_cons_of_mem _ he)
    have he := h e List.mem_cons_self
    rw [List.filterMap_cons, List.map_cons]
    generalize (readSchema options anchors e).model? = model at he
    generalize (readSchema options anchors e).skips = skips at he
    cases he with
    | skip => exact hrest.cons _
    | model _ name_eq =>
      rw [List.map_cons, name_eq]
      exact hrest.cons_cons _

/-- **Reading accounts for every schema.**  If `readModels` succeeds, its result accounts for the
entries of `components.schemas`, and the log gets one event for each skip, in order. -/
theorem readModels_accountsFor (options : ReaderOptions) (document : Document)
    (session session' : Session) (result : ReadResult)
    (h : (readModels options document).run.run session = (.ok result, session')) :
    ∃ tree children,
      parseTree document.raw = .ok tree ∧ schemas? tree = some (.mapping children) ∧
      AccountsFor options tree.anchors (Node.entries tree.anchors (.mapping children)) result ∧
      session'.log = session.log ++ result.skipped.map Skip.event := by
  obtain ⟨tree, children, session₁, hparse, hschemas, hlog₁, hread⟩ := readModels_eq_ok h
  obtain ⟨haccounted, hmodels, hskipped, hlog⟩ := readSchemas_eq_ok hread
  have hnodup := Node.nodup_map_key_entries tree.anchors (.mapping children)
  refine ⟨tree, children, hparse, hschemas, ?_, by rw [hlog, hlog₁]⟩
  exact {
    keys_nodup := hnodup
    models_eq := hmodels
    skipped_eq := hskipped
    accounted := haccounted
    independent := fun e _ anchors' e' hkey hgraph => readSchema_congr hkey hgraph
    names_nodup := hmodels ▸ (map_name_models_sublist haccounted).nodup hnodup }

/-- A document with a repeated schema, a repeated property, a skipped property and an alias. -/
def aliasDocument : Document where
  raw := ("openapi: '3'\ncomponents:\n  schemas:\n    R: 1\n    A: &a\n      type: object\n"
    ++ "      required: [x]\n      properties:\n        x: {type: string}\n"
    ++ "        r: \x7b$ref: '#'\x7d\n        x: \x7btype: number\x7d\n    B: *a\n"
    ++ "    R: \x7b$ref: '#'\x7d\n").toUTF8

theorem readModels_aliasDocument_isOk :
    ((readModels {} aliasDocument).run.run {}).1.isOk = true := by
  decide +kernel

theorem readModels_accountsFor_aliasDocument :
    ∃ result session',
      (readModels {} aliasDocument).run.run {} = (.ok result, session') ∧
      ∃ tree children,
        parseTree aliasDocument.raw = .ok tree ∧ schemas? tree = some (.mapping children) ∧
        AccountsFor {} tree.anchors (Node.entries tree.anchors (.mapping children)) result ∧
        session'.log = result.skipped.map Skip.event := by
  have hok := readModels_aliasDocument_isOk
  rcases hrun : (readModels {} aliasDocument).run.run {} with ⟨e | result, session'⟩
  · rw [hrun] at hok
    cases hok
  · exact ⟨result, session', rfl, readModels_accountsFor {} aliasDocument {} session' result hrun⟩

end SchemaPress.OpenApi
