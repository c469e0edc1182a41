import SchemaPress.Proofs.Node.Entries
import SchemaPress.Proofs.Node.Graph
import SchemaPress.Proofs.Value.Alike

/-!
# The same document in another order

Two documents are the same up to the order of keys if a relation leads from one to the other that
every step keeps, where the pairs of a mapping may stand in another order as long as its keys are
different (`OrderRelation`).  Lines do not matter either, since text that is moved stands on other
lines.

Related nodes have the same keys with related nodes under them, though not in the same order
(`OrderRelation.entries`).  What is looked up is related (`lookup?`), and what they denote is alike
(`value`).  Which error comes first may differ, so two results are only in `Accord`: they are both
errors, or both related.
-/

namespace SchemaPress

/-- Two results that are both errors, or both values that `S` relates. -/
inductive Accord {ε α β : Type} (S : α → β → Prop) : Except ε α → Except ε β → Prop
  | error (e e' : ε) : Accord S (.error e) (.error e')
  | ok {a : α} {b : β} (h : S a b) : Accord S (.ok a) (.ok b)

namespace Accord

variable {ε α β γ δ : Type} {S : α → β → Prop} {T : γ → δ → Prop} {x : Except ε α} {y : Except ε β}

theorem rel_of_ok (h : Accord S x y) {a : α} {b : β} (hx : x = .ok a) (hy : y = .ok b) :
    S a b := by
  subst hx hy
  cases h with
  | ok h => exact h

theorem exists_right (h : Accord S x y) {a : α} (hx : x = .ok a) : ∃ b, y = .ok b := by
  subst hx
  cases h with
  | ok _ => exact ⟨_, rfl⟩

theorem exists_left (h : Accord S x y) {b : β} (hy : y = .ok b) : ∃ a, x = .ok a := by
  subst hy
  cases h with
  | ok _ => exact ⟨_, rfl⟩

theorem bind (h : Accord S x y) {f : α → Except ε γ} {g : β → Except ε δ}
    (hfg : ∀ a b, S a b → Accord T (f a) (g b)) : Accord T (x >>= f) (y >>= g) := by
  cases h with
  | error e e' => exact .error e e'
  | ok h => exact hfg _ _ h

/-- `Accord` from success on both sides and related values. -/
theorem of_iff (h : ∀ a, x = .ok a → ∃ b, y = .ok b) (h' : ∀ b, y = .ok b → ∃ a, x = .ok a)
    (hrel : ∀ a b, x = .ok a → y = .ok b → S a b) : Accord S x y := by
  rcases x with e | a
  · rcases y with e' | b
    · exact .error e e'
    · obtain ⟨a, ha⟩ := h' b rfl
      cases ha
  · obtain ⟨b, rfl⟩ := h a rfl
    exact .ok (hrel a b rfl rfl)

theorem mapM {xs : List α} {ys : List β} {f : α → Except ε γ} {g : β → Except ε δ}
    (h : List.Forall₂ S xs ys) (hfg : ∀ a b, S a b → Accord T (f a) (g b)) :
    Accord (List.Forall₂ T) (xs.mapM f) (ys.mapM g) := by
  induction h with
  | nil => exact .ok .nil
  | cons hab _ ih =>
    rw [List.mapM_cons, List.mapM_cons]
    exact (hfg _ _ hab).bind fun _ _ hc => ih.bind fun _ _ hcs => .ok (.cons hc hcs)

end Accord

namespace Node

/-! ### Entries in another order -/

/-- The entry of a pair, if its key can be resolved. -/
def entryOf? (anchors : Anchors) (pair : Node × Node) : Option Entry :=
  (pair.1.resolve? anchors).map fun key => ⟨key.keyText, pair.2⟩

/-- The entries that `putPair` makes of `ps`, which may repeat a key. -/
def entriesOf (anchors : Anchors) (ps : List (Node × Node)) : List Entry :=
  ps.foldl (putPair anchors) []

/-- The entries of `ps` have distinct keys. -/
def DistinctKeys (anchors : Anchors) (ps : List (Node × Node)) : Prop :=
  ((ps.filterMap (entryOf? anchors)).map (·.key)).Nodup

theorem put_of_notMem {key : String} {node : Node} {es : List Entry}
    (h : key ∉ es.map (·.key)) : put key node es = es ++ [⟨key, node⟩] := by
  induction es with
  | nil => rfl
  | cons e rest ih =>
    rw [List.map_cons, List.mem_cons, not_or] at h
    have hkey : (e.key == key) = false := by simpa using Ne.symm h.1
    rw [put, hkey, if_neg Bool.false_ne_true, ih h.2, List.cons_append]

/-- `putPair` appends the entries of pairs with new and distinct keys. -/
theorem foldl_putPair_of_nodup (anchors : Anchors) (ps : List (Node × Node)) {es : List Entry}
    (h : ((es ++ ps.filterMap (entryOf? anchors)).map (·.key)).Nodup) :
    ps.foldl (putPair anchors) es = es ++ ps.filterMap (entryOf? anchors) := by
  induction ps generalizing es with
  | nil => rw [List.filterMap_nil, List.append_nil, List.foldl_nil]
  | cons p rest ih =>
    rw [List.foldl_cons]
    cases hkey : p.1.resolve? anchors with
    | none =>
      have hentry : entryOf? anchors p = none := by rw [entryOf?, hkey, Option.map_none]
      have hput : putPair anchors es p = es := by rw [putPair, hkey]
      rw [List.filterMap_cons_none hentry] at h ⊢
      rw [hput, ih h]
    | some key =>
      have hentry : entryOf? anchors p = some ⟨key.keyText, p.2⟩ := by
        rw [entryOf?, hkey, Option.map_some]
      rw [List.filterMap_cons_some hentry] at h ⊢
      have hnew : key.keyText ∉ es.map (·.key) := by
        rw [List.map_append, List.map_cons] at h
        exact fun hmem => (List.nodup_append.1 h).2.2 _ hmem _ List.mem_cons_self rfl
      have hput : putPair anchors es p = es ++ [⟨key.keyText, p.2⟩] := by
        rw [putPair, hkey]
        exact put_of_notMem hnew
      rw [hput, ih (by simpa using h), List.append_assoc, List.singleton_append]

theorem entriesOf_eq_filterMap {anchors : Anchors} {ps : List (Node × Node)}
    (h : DistinctKeys anchors ps) : entriesOf anchors ps = ps.filterMap (entryOf? anchors) :=
  foldl_putPair_of_nodup anchors ps h

/-- **`entriesOf` takes permutations of pairs with distinct keys to permutations.** -/
theorem entriesOf_perm {anchors : Anchors} {ps qs : List (Node × Node)} (h : ps.Perm qs)
    (hdistinct : DistinctKeys anchors qs) : (entriesOf anchors ps).Perm (entriesOf anchors qs) := by
  have hentries := h.filterMap (entryOf? anchors)
  have hdistinct' : DistinctKeys anchors ps := by
    unfold DistinctKeys at hdistinct ⊢
    rwa [(hentries.map _).nodup_iff]
  rw [entriesOf_eq_filterMap hdistinct, entriesOf_eq_filterMap hdistinct']
  exact hentries

/-- `es` and `es'` are related one by one, up to a permutation. -/
def EntriesRel (R : Node → Node → Prop) (es es' : List Entry) : Prop :=
  ∃ mid, List.Forall₂ (EntryRel R) es mid ∧ mid.Perm es'

theorem map_key_of_forall₂ {R : Node → Node → Prop} {es es' : List Entry}
    (h : List.Forall₂ (EntryRel R) es es') : es.map (·.key) = es'.map (·.key) := by
  induction h with
  | nil => rfl
  | cons he _ ih => rw [List.map_cons, List.map_cons, he.1, ih]

theorem exists_of_forall₂ {α β : Type} {S : α → β → Prop} {xs : List α} {ys : List β}
    (h : List.Forall₂ S xs ys) {x : α} (hx : x ∈ xs) : ∃ y ∈ ys, S x y := by
  induction h with
  | nil => cases hx
  | @cons a b _ _ hab _ ih =>
    rcases List.mem_cons.1 hx with rfl | hx
    · exact ⟨b, List.mem_cons_self, hab⟩
    · obtain ⟨y, hy, hxy⟩ := ih hx
      exact ⟨y, List.mem_cons_of_mem _ hy, hxy⟩

namespace EntriesRel

variable {R : Node → Node → Prop} {es es' : List Entry}

theorem perm_keys (h : EntriesRel R es es') : (es.map (·.key)).Perm (es'.map (·.key)) := by
  obtain ⟨mid, hmid, hperm⟩ := h
  rw [map_key_of_forall₂ hmid]
  exact hperm.map _

theorem exists_right (h : EntriesRel R es es') {e : Entry} (he : e ∈ es) :
    ∃ e' ∈ es', EntryRel R e e' := by
  obtain ⟨mid, hmid, hperm⟩ := h
  obtain ⟨e', he', hrel⟩ := exists_of_forall₂ hmid he
  exact ⟨e', hperm.mem_iff.1 he', hrel⟩

theorem exists_left (h : EntriesRel R es es') {e' : Entry} (he' : e' ∈ es') :
    ∃ e ∈ es, EntryRel R e e' := by
  obtain ⟨mid, hmid, hperm⟩ := h
  obtain ⟨e, he, hrel⟩ := exists_of_forall₂ hmid.flip (hperm.mem_iff.2 he')
  exact ⟨e, he, hrel⟩

/-- If the keys are distinct, entries with the same key are related. -/
theorem rel_of_key_eq (h : EntriesRel R es es') (hnodup : (es.map (·.key)).Nodup) {e e' : Entry}
    (he : e ∈ es) (he' : e' ∈ es') (hkey : e.key = e'.key) : R e.node e'.node := by
  obtain ⟨e₀, he₀, hrel⟩ := h.exists_left he'
  have heq : e = e₀ := List.inj_on_of_nodup_map hnodup he he₀ (hkey.trans hrel.1.symm)
  exact heq ▸ hrel.2

end EntriesRel

/-- Entries with distinct keys that are permutations of each other are equal if their keys are in
the same order. -/
theorem eq_of_perm_of_map_key_eq {es es' : List Entry} (h : es.Perm es')
    (hnodup : (es.map (·.key)).Nodup) (hkeys : es.map (·.key) = es'.map (·.key)) : es = es' := by
  induction es generalizing es' with
  | nil => exact h.nil_eq
  | cons e rest ih =>
    cases es' with
    | nil => cases hkeys
    | cons e' rest' =>
      rw [List.map_cons, List.map_cons, List.cons.injEq] at hkeys
      have hmem : e' ∈ e :: rest := h.mem_iff.2 List.mem_cons_self
      have heq : e = e' := List.inj_on_of_nodup_map hnodup List.mem_cons_self hmem hkeys.1
      subst heq
      rw [ih h.cons_inv (List.nodup_cons.1 hnodup).2 hkeys.2]

theorem EntriesRel.forall₂ {R : Node → Node → Prop} {es es' : List Entry} (h : EntriesRel R es es')
    (hnodup : (es'.map (·.key)).Nodup) (hkeys : es.map (·.key) = es'.map (·.key)) :
    List.Forall₂ (EntryRel R) es es' := by
  obtain ⟨mid, hmid, hperm⟩ := h
  have hmidKeys : mid.map (·.key) = es'.map (·.key) := (map_key_of_forall₂ hmid).symm.trans hkeys
  rwa [← eq_of_perm_of_map_key_eq hperm (hmidKeys ▸ hnodup) hmidKeys]

theorem find?_eq_some_iff {es : List Entry} (hnodup : (es.map (·.key)).Nodup) {key : String}
    {e : Entry} : es.find? (·.key == key) = some e ↔ e ∈ es ∧ e.key = key := by
  constructor
  · intro h
    exact ⟨List.mem_of_find?_eq_some h, by simpa using List.find?_some h⟩
  · rintro ⟨he, rfl⟩
    cases hfound : es.find? (·.key == e.key) with
    | none => exact absurd (List.find?_eq_none.1 hfound e he) (by simp)
    | some e' =>
      have hkey : e'.key = e.key := by simpa using List.find?_some hfound
      rw [List.inj_on_of_nodup_map hnodup (List.mem_of_find?_eq_some hfound) he hkey]

theorem EntriesRel.find? {R : Node → Node → Prop} {es es' : List Entry} (h : EntriesRel R es es')
    (hnodup : (es.map (·.key)).Nodup) (hnodup' : (es'.map (·.key)).Nodup) (key : String) :
    Option.Rel (EntryRel R) (es.find? (·.key == key)) (es'.find? (·.key == key)) := by
  cases hfound : es.find? (·.key == key) with
  | some e =>
    obtain ⟨he, rfl⟩ := (find?_eq_some_iff hnodup).1 hfound
    obtain ⟨e', he', hrel⟩ := h.exists_right he
    rw [(find?_eq_some_iff hnodup').2 ⟨he', hrel.1.symm⟩]
    exact .some hrel
  | none =>
    cases hfound' : es'.find? (·.key == key) with
    | none => exact .none
    | some e' =>
      obtain ⟨he', rfl⟩ := (find?_eq_some_iff hnodup').1 hfound'
      obtain ⟨e, he, hrel⟩ := h.exists_left he'
      rw [(find?_eq_some_iff hnodup).2 ⟨he, hrel.1⟩] at hfound
      cases hfound

/-! ### Lists of results -/

theorem mapM_eq_ok_iff {ε α β : Type} {f : α → Except ε β} {xs : List α} {ys : List β} :
    xs.mapM f = .ok ys ↔ List.Forall₂ (fun x y => f x = .ok y) xs ys := by
  induction xs generalizing ys with
  | nil =>
    rw [List.mapM_nil, List.forall₂_nil_left_iff]
    exact ⟨fun h => (Except.ok.inj h).symm, fun h => h ▸ rfl⟩
  | cons x rest ih =>
    rw [List.mapM_cons, List.forall₂_cons_left_iff]
    constructor
    · intro h
      cases hx : f x with
      | error _ =>
        rw [hx] at h
        cases h
      | ok y =>
        rw [hx] at h
        cases hmore : rest.mapM f with
        | error _ =>
          rw [hmore] at h
          cases h
        | ok more =>
          rw [hmore] at h
          exact ⟨y, more, rfl, ih.1 hmore, (Except.ok.inj h).symm⟩
    · rintro ⟨y, more, hy, hmore, rfl⟩
      rw [hy, ih.2 hmore]
      rfl

/-- `mapM` over entries gives one field for each, with the key as its name. -/
theorem fields_of_mapM {g : Entry → Except NodeError Value} {es : List Entry}
    {fields : List (String × Value)}
    (h : (es.mapM fun e => do return (e.key, ← g e)) = .ok fields) :
    List.Forall₂ (fun e f => e.key = f.1 ∧ g e = .ok f.2) es fields := by
  refine (mapM_eq_ok_iff.1 h).imp fun e f hf => ?_
  cases hv : g e with
  | error _ =>
    rw [hv] at hf
    cases hf
  | ok v =>
    rw [hv] at hf
    cases hf
    exact ⟨rfl, rfl⟩

theorem map_fst_of_mapM {g : Entry → Except NodeError Value} {es : List Entry}
    {fields : List (String × Value)}
    (h : (es.mapM fun e => do return (e.key, ← g e)) = .ok fields) :
    fields.map (·.1) = es.map (·.key) := by
  have hfields := fields_of_mapM h
  clear h
  induction hfields with
  | nil => rfl
  | cons hf _ ih => rw [List.map_cons, List.map_cons, hf.1, ih]

theorem exists_mapM {g : Entry → Except NodeError Value} {es : List Entry}
    (h : ∀ e ∈ es, ∃ v, g e = .ok v) :
    ∃ fields, (es.mapM fun e => do return (e.key, ← g e)) = .ok fields := by
  induction es with
  | nil => exact ⟨[], rfl⟩
  | cons e rest ih =>
    obtain ⟨v, hv⟩ := h e List.mem_cons_self
    obtain ⟨more, hmore⟩ := ih fun e he => h e (List.mem_cons_of_mem _ he)
    refine ⟨(e.key, v) :: more, ?_⟩
    rw [List.mapM_cons, hv, hmore]
    rfl

/-! ### Documents in another order -/

/-- `ps` and `qs` are related one by one, up to a permutation if the keys are distinct. -/
def PairsRel (anchors' : Anchors) (R : Node → Node → Prop) (ps qs : List (Node × Node)) : Prop :=
  ∃ mid, List.Forall₂ (fun p q => R p.1 q.1 ∧ R p.2 q.2) ps mid ∧ mid.Perm qs ∧
    (mid = qs ∨ DistinctKeys anchors' qs)

/-- A relation `R` between the nodes of two documents that every step into a node keeps, whatever
the order of its keys is. -/
structure OrderRelation (anchors anchors' : Anchors) (R : Node → Node → Prop) : Prop where
  scalar : ∀ {s n}, R (.scalar s) n → ∃ line, n = .scalar { s with line }
  sequence : ∀ {items n}, R (.sequence items) n →
    ∃ items', n = .sequence items' ∧ List.Forall₂ R items items'
  mapping : ∀ {children n}, R (.mapping children) n →
    ∃ children', n = .mapping children' ∧ PairsRel anchors' R (pairs children) (pairs children')
  document : ∀ {content n}, R (.document content) n →
    ∃ content', n = .document content' ∧ List.Forall₂ R content content'
  anchored : ∀ {a n}, R (.alias a) n →
    ∃ a', n = .alias a' ∧ Option.Rel R anchors[a]? anchors'[a']?

namespace OrderRelation

variable {anchors anchors' : Anchors} {R : Node → Node → Prop}

theorem follow (hR : OrderRelation anchors anchors' R) : FollowRelation anchors anchors' R := by
  intro m n h
  cases m with
  | scalar s =>
    obtain ⟨line, rfl⟩ := hR.scalar h
    exact .scalar rfl
  | sequence items =>
    obtain ⟨items', rfl, -⟩ := hR.sequence h
    exact .sequence _ _
  | mapping children =>
    obtain ⟨children', rfl, -⟩ := hR.mapping h
    exact .mapping _ _
  | document content =>
    obtain ⟨content', rfl, hcontent⟩ := hR.document h
    exact .document (rel_head?_of_forall₂ hcontent)
  | «alias» a =>
    obtain ⟨a', rfl, hanchor⟩ := hR.anchored h
    exact .anchored hanchor

theorem entriesOf (hR : OrderRelation anchors anchors' R) {ps qs : List (Node × Node)}
    (h : PairsRel anchors' R ps qs) :
    EntriesRel R (Node.entriesOf anchors ps) (Node.entriesOf anchors' qs) := by
  obtain ⟨mid, hmid, hperm, horder⟩ := h
  refine ⟨Node.entriesOf anchors' mid, hR.follow.foldl_putPair hmid .nil, ?_⟩
  rcases horder with rfl | hdistinct
  · exact .rfl
  · exact entriesOf_perm hperm hdistinct

/-- **`entries` takes related nodes to related entries**, up to a permutation. -/
theorem entries (hR : OrderRelation anchors anchors' R) {m n : Node} (h : R m n) :
    EntriesRel R (m.entries anchors) (n.entries anchors') := by
  unfold Node.entries
  have hresolve := hR.follow.resolve? h
  generalize m.resolve? anchors = m' at hresolve
  generalize n.resolve? anchors' = n' at hresolve
  cases hresolve with
  | none => exact ⟨[], .nil, .rfl⟩
  | @some m' n' hmn =>
    cases m' with
    | mapping children =>
      obtain ⟨children', rfl, hpairs⟩ := hR.mapping hmn
      exact hR.entriesOf hpairs
    | scalar s =>
      obtain ⟨line, rfl⟩ := hR.scalar hmn
      exact ⟨[], .nil, .rfl⟩
    | sequence items =>
      obtain ⟨items', rfl, -⟩ := hR.sequence hmn
      exact ⟨[], .nil, .rfl⟩
    | document content =>
      obtain ⟨content', rfl, -⟩ := hR.document hmn
      exact ⟨[], .nil, .rfl⟩
    | «alias» a =>
      obtain ⟨a', rfl, -⟩ := hR.anchored hmn
      exact ⟨[], .nil, .rfl⟩

theorem lookup? (hR : OrderRelation anchors anchors' R) {m n : Node} (h : R m n) (key : String) :
    Option.Rel R (m.lookup? anchors key) (n.lookup? anchors' key) := by
  unfold Node.lookup?
  have hfind := (hR.entries h).find? (nodup_map_key_entries anchors m)
    (nodup_map_key_entries anchors' n) key
  generalize (m.entries anchors).find? (·.key == key) = e at hfind
  generalize (n.entries anchors').find? (·.key == key) = e' at hfind
  cases hfind with
  | none => exact .none
  | some he => exact hR.follow.resolve? he.2

/-! ### What they denote -/

theorem alike_list {items items' : List Value} (h : List.Forall₂ Value.Alike items items') :
    (Value.list items).Alike (.list items') := by
  refine .list h.length_eq fun i v v' hv hv' => ?_
  obtain ⟨hi, rfl⟩ := List.getElem?_eq_some_iff.1 hv
  obtain ⟨hi', rfl⟩ := List.getElem?_eq_some_iff.1 hv'
  exact h.get hi hi'

/-- `mapM` takes related entries to alike maps, or fails on both. -/
theorem accord_mapM {g g' : Entry → Except NodeError Value} {es es' : List Entry}
    (h : EntriesRel R es es') (hnodup : (es.map (·.key)).Nodup)
    (hnodup' : (es'.map (·.key)).Nodup)
    (hg : ∀ e e', EntryRel R e e' → Accord Value.Alike (g e) (g' e')) :
    Accord (fun fields fields' => (Value.map fields).Alike (.map fields'))
      (es.mapM fun e => do return (e.key, ← g e))
      (es'.mapM fun e => do return (e.key, ← g' e)) := by
  refine .of_iff (fun fields hfields => exists_mapM fun e' he' => ?_)
    (fun fields' hfields' => exists_mapM fun e he => ?_)
    fun fields fields' hfields hfields' => ?_
  · obtain ⟨e, he, hrel⟩ := h.exists_left he'
    obtain ⟨f, -, -, hf⟩ := exists_of_forall₂ (fields_of_mapM hfields) he
    exact (hg e e' hrel).exists_right hf
  · obtain ⟨e', he', hrel⟩ := h.exists_right he
    obtain ⟨f, -, -, hf⟩ := exists_of_forall₂ (fields_of_mapM hfields') he'
    exact (hg e e' hrel).exists_left hf
  · have hnames := map_fst_of_mapM hfields
    have hnames' := map_fst_of_mapM hfields'
    refine .map (hnames ▸ hnodup) (hnames' ▸ hnodup') (fun name => ?_) fun name v v' hv hv' => ?_
    · rw [hnames, hnames']
      exact h.perm_keys.mem_iff
    · obtain ⟨e, he, hkey, hvalue⟩ := exists_of_forall₂ (fields_of_mapM hfields).flip hv
      obtain ⟨e', he', hkey', hvalue'⟩ := exists_of_forall₂ (fields_of_mapM hfields').flip hv'
      have hsame : e.key = e'.key := hkey.trans hkey'.symm
      have hrel : R e.node e'.node := h.rel_of_key_eq hnodup he he' hsame
      exact (hg e e' ⟨hsame, hrel⟩).rel_of_ok hvalue hvalue'

/-- **`valueWithin` takes related nodes to alike values**, or fails on both. -/
theorem valueWithin (hR : OrderRelation anchors anchors' R) (levels : Nat) {m n : Node}
    (h : R m n) :
    Accord Value.Alike (m.valueWithin anchors levels) (n.valueWithin anchors' levels) := by
  induction levels generalizing m n with
  | zero =>
    rw [Node.valueWithin, Node.valueWithin]
    exact .error _ _
  | succ levels ih =>
    rw [Node.valueWithin, Node.valueWithin]
    have hresolve := hR.follow.resolve? h
    generalize m.resolve? anchors = m' at hresolve
    generalize n.resolve? anchors' = n' at hresolve
    cases hresolve with
    | none => exact .ok (.refl _)
    | @some m' n' hmn =>
      cases m' with
      | mapping children =>
        obtain ⟨children', rfl, -⟩ := hR.mapping hmn
        have hfields := accord_mapM (hR.entries hmn) (nodup_map_key_entries anchors _)
          (nodup_map_key_entries anchors' _) fun e e' he => ih he.2
        exact hfields.bind fun _ _ halike => .ok halike
      | sequence items =>
        obtain ⟨items', rfl, hitems⟩ := hR.sequence hmn
        exact (Accord.mapM hitems fun _ _ => ih).bind fun _ _ halike => .ok (alike_list halike)
      | scalar s =>
        obtain ⟨line, rfl⟩ := hR.scalar hmn
        have hvalue : Scalar.value? { s with line } = s.value? := rfl
        dsimp only
        rw [hvalue]
        cases s.value? with
        | none => exact .error _ _
        | some v => exact .ok (.refl v)
      | document content =>
        obtain ⟨content', rfl, -⟩ := hR.document hmn
        exact .ok (.refl _)
      | «alias» a =>
        obtain ⟨a', rfl, -⟩ := hR.anchored hmn
        exact .ok (.refl _)

theorem value (hR : OrderRelation anchors anchors' R) {m n : Node} (h : R m n) :
    Accord Value.Alike (m.value anchors) (n.value anchors') :=
  hR.valueWithin (maxDepth + 1) h

end OrderRelation

end Node

end SchemaPress
