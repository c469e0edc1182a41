import Mathlib.Data.List.Induction
import Mathlib.Logic.Relation
import SchemaPress.Proofs.Collapsed
import SchemaPress.Proofs.Node.OfJson

/-!
# Documents as graphs

Aliases make a document a graph, and one that leads back to a node around it makes the graph cyclic.
Here the graph is described without any bound: `Means` follows aliases to a scalar or a collection,
`Inside` goes from a node to what stands one level further in, where of several pairs with the same
key only the last one counts (`Survives`), and `Unfolds` is the value of the whole unfolding.

`Node.value` follows a graph to a depth of `maxDepth` and no further.  It has a value just if the
unfolding ends within that depth and its scalars denote something, and that value is the one of the
unfolding.  Around a cycle there are paths of any length, so a graph with a cycle has no value at
all (`value_of_isGraph`).
-/

namespace SchemaPress.Node

variable {anchors : Anchors} {n m child : Node} {children : List Node}

/-! ### Graphs -/

/-- `Means anchors n m`: through documents and aliases, `n` stands for the content `m`. -/
inductive Means (anchors : Anchors) : Node → Node → Prop
  | scalar (s : Scalar) : Means anchors (.scalar s) (.scalar s)
  | sequence (items : List Node) : Means anchors (.sequence items) (.sequence items)
  | mapping (children : List Node) : Means anchors (.mapping children) (.mapping children)
  | document {n m : Node} {rest : List Node} (h : Means anchors n m) :
      Means anchors (.document (n :: rest)) m
  | anchored {a : Nat} {n m : Node} (ha : anchors[a]? = some n) (h : Means anchors n m) :
      Means anchors (.alias a) m

/-- All aliases in the node lead to anchored nodes. -/
inductive Linked (anchors : Anchors) : Node → Prop
  | scalar (s : Scalar) : Linked anchors (.scalar s)
  | sequence {items : List Node} (h : ∀ n ∈ items, Linked anchors n) :
      Linked anchors (.sequence items)
  | mapping {children : List Node} (h : ∀ n ∈ children, Linked anchors n) :
      Linked anchors (.mapping children)
  | anchored {a : Nat} {n : Node} (h : anchors[a]? = some n) : Linked anchors (.alias a)

/-- The anchored nodes are `Linked`, and none of them is an alias. -/
def AreTargets (anchors : Anchors) : Prop :=
  ∀ (a : Nat) (n : Node), anchors[a]? = some n → Linked anchors n ∧ ∀ b, n ≠ .alias b

/-- Root and anchored nodes are `Linked`, and no anchored node is an alias.  A document may stand at
the root.  Aliases may lead to nodes around them. -/
structure IsGraph (t : Tree) : Prop where
  root : Linked t.anchors t.root ∨
    ∃ n rest, t.root = .document (n :: rest) ∧ Linked t.anchors n
  targets : AreTargets t.anchors

/-- `child` is the value of the last pair with the key `key`. -/
def Survives (anchors : Anchors) (children : List Node) (key : String) (child : Node) : Prop :=
  ∃ before k after, pairs children = before ++ (k, child) :: after ∧
    (∃ m, Means anchors k m ∧ m.keyText = key) ∧
    ∀ p ∈ after, ∀ m, Means anchors p.1 m → m.keyText ≠ key

/-- `Inside anchors n child`: one level further in, `child` is an item of the sequence that `n`
means, or `Survives` in the mapping. -/
inductive Inside (anchors : Anchors) (n : Node) : Node → Prop
  | item {items : List Node} {child : Node} (h : Means anchors n (.sequence items))
      (hchild : child ∈ items) : Inside anchors n child
  | entry {children : List Node} {key : String} {child : Node}
      (h : Means anchors n (.mapping children)) (hchild : Survives anchors children key child) :
      Inside anchors n child

/-- `Path anchors k n m`: `k` steps `Inside` lead from `n` to `m`. -/
inductive Path (anchors : Anchors) : Nat → Node → Node → Prop
  | here (n : Node) : Path anchors 0 n n
  | step {k : Nat} {n child m : Node} (h : Inside anchors n child)
      (rest : Path anchors k child m) : Path anchors (k + 1) n m

/-- No path from a node is longer than `depth`. -/
def DepthAtMost (anchors : Anchors) (depth : Nat) (n : Node) : Prop :=
  ∀ k m, Path anchors k n m → k ≤ depth

/-- `Unfolds anchors n v`: `v` is the value of the unfolding of `n`, where the order of fields does
not matter. -/
inductive Unfolds (anchors : Anchors) : Node → Value → Prop
  | scalar {n : Node} {s : Scalar} {v : Value} (h : Means anchors n (.scalar s))
      (hv : s.value? = some v) : Unfolds anchors n v
  | sequence {n : Node} {items : List Node} {values : List Value}
      (h : Means anchors n (.sequence items)) (length_eq : items.length = values.length)
      (hitems : ∀ (i : Nat) child v, items[i]? = some child → values[i]? = some v →
        Unfolds anchors child v) :
      Unfolds anchors n (.list values)
  | mapping {n : Node} {children : List Node} {fields : List (String × Value)}
      (h : Means anchors n (.mapping children)) (nodup : (fields.map (·.1)).Nodup)
      (keys : ∀ key, key ∈ fields.map (·.1) ↔ ∃ child, Survives anchors children key child)
      (hfields : ∀ key child v, Survives anchors children key child → (key, v) ∈ fields →
        Unfolds anchors child v) :
      Unfolds anchors n (.map fields)

/-- Every scalar that a `Path` leads to has a value. -/
def ScalarsDecode (anchors : Anchors) (n : Node) : Prop :=
  ∀ k m s, Path anchors k n m → Means anchors m (.scalar s) → s.value?.isSome = true

/-- The conversion of the node `caller.2` at depth `caller.1` goes on to `callee.2`, which is
`Inside`, one level deeper; at most `maxDepth` levels are entered. -/
def Calls (anchors : Anchors) (callee caller : Nat × Node) : Prop :=
  caller.1 ≤ maxDepth ∧ callee.1 = caller.1 + 1 ∧ Inside anchors caller.2 callee.2

/-! ### Following aliases -/

theorem Means.unique (h : Means anchors n m) {m' : Node} (h' : Means anchors n m') : m = m' := by
  induction h with
  | scalar | sequence | mapping =>
    cases h'
    rfl
  | document _ ih =>
    cases h' with
    | document h' => exact ih h'
  | anchored ha _ ih =>
    cases h' with
    | anchored ha' h' =>
      obtain rfl := Option.some.inj (ha.symm.trans ha')
      exact ih h'

theorem Means.ne_alias (h : Means anchors n m) (a : Nat) : m ≠ .alias a := by
  induction h with
  | scalar | sequence | mapping => exact fun hm => by cases hm
  | document _ ih | anchored _ _ ih => exact ih

/-- `n` means some `Linked` node, and `resolveWithin` finds it in three steps. -/
def Resolves (anchors : Anchors) (n : Node) : Prop :=
  ∃ m, Means anchors n m ∧ Linked anchors m ∧
    ∀ steps, 3 ≤ steps → n.resolveWithin anchors steps = some m

/-- `resolveWithin` finds a `Linked` node that is no alias at once. -/
theorem Linked.resolveWithin_of_ne_alias (h : Linked anchors n) (hne : ∀ a, n ≠ .alias a) :
    Means anchors n n ∧ ∀ steps, 0 < steps → n.resolveWithin anchors steps = some n := by
  have hpos : ∀ steps, 0 < steps → ∃ more, steps = more + 1 :=
    fun steps hsteps => ⟨steps - 1, by omega⟩
  cases h with
  | scalar s =>
    refine ⟨.scalar s, fun steps hsteps => ?_⟩
    obtain ⟨more, rfl⟩ := hpos steps hsteps
    rfl
  | @sequence items h =>
    refine ⟨.sequence items, fun steps hsteps => ?_⟩
    obtain ⟨more, rfl⟩ := hpos steps hsteps
    rfl
  | @mapping children h =>
    refine ⟨.mapping children, fun steps hsteps => ?_⟩
    obtain ⟨more, rfl⟩ := hpos steps hsteps
    rfl
  | @anchored a _ h => exact absurd rfl (hne a)

/-- `resolveWithin` takes one step for an alias, since the anchored node is no alias. -/
theorem Linked.resolveWithin (h : Linked anchors n) (htargets : AreTargets anchors) :
    ∃ m, Means anchors n m ∧ Linked anchors m ∧
      ∀ steps, 2 ≤ steps → n.resolveWithin anchors steps = some m := by
  by_cases halias : ∃ a, n = .alias a
  · obtain ⟨a, rfl⟩ := halias
    cases h with
    | @anchored _ m ha =>
      obtain ⟨hm, hne⟩ := htargets a m ha
      obtain ⟨hmeans, hresolve⟩ := hm.resolveWithin_of_ne_alias hne
      refine ⟨m, .anchored ha hmeans, hm, fun steps hsteps => ?_⟩
      obtain ⟨more, rfl⟩ : ∃ more, steps = more + 1 := ⟨steps - 1, by omega⟩
      rw [Node.resolveWithin, ha]
      exact hresolve more (by omega)
  · have hne : ∀ a, n ≠ .alias a := fun a hn => halias ⟨a, hn⟩
    obtain ⟨hmeans, hresolve⟩ := h.resolveWithin_of_ne_alias hne
    exact ⟨n, hmeans, h, fun steps hsteps => hresolve steps (by omega)⟩

theorem Linked.resolves (h : Linked anchors n) (htargets : AreTargets anchors) :
    Resolves anchors n := by
  obtain ⟨m, hmeans, hm, hresolve⟩ := h.resolveWithin htargets
  exact ⟨m, hmeans, hm, fun steps hsteps => hresolve steps (by omega)⟩

theorem IsGraph.resolves_root {t : Tree} (h : IsGraph t) : Resolves t.anchors t.root := by
  rcases h.root with hroot | ⟨n, rest, hroot, hn⟩
  · exact hroot.resolves h.targets
  · obtain ⟨m, hmeans, hm, hresolve⟩ := hn.resolveWithin h.targets
    rw [hroot]
    refine ⟨m, .document hmeans, hm, fun steps hsteps => ?_⟩
    obtain ⟨more, rfl⟩ : ∃ more, steps = more + 1 := ⟨steps - 1, by omega⟩
    rw [Node.resolveWithin]
    exact hresolve more (by omega)

theorem Resolves.exists_resolve? (h : Resolves anchors n) :
    ∃ m, Means anchors n m ∧ Linked anchors m ∧ n.resolve? anchors = some m := by
  obtain ⟨m, hmeans, hm, hresolve⟩ := h
  exact ⟨m, hmeans, hm, hresolve maxDepth (by decide)⟩

theorem Resolves.resolve?_of_means (h : Resolves anchors n) (hmeans : Means anchors n m) :
    n.resolve? anchors = some m ∧ Linked anchors m := by
  obtain ⟨m', hmeans', hm', hresolve⟩ := h.exists_resolve?
  obtain rfl := hmeans'.unique hmeans
  exact ⟨hresolve, hm'⟩

/-! ### Surviving pairs -/

theorem mem_of_mem_pairs {p : Node × Node} (h : p ∈ pairs children) :
    p.1 ∈ children ∧ p.2 ∈ children := by
  fun_induction pairs children with
  | case1 key value rest ih =>
    rcases List.mem_cons.1 h with rfl | h
    · exact ⟨List.mem_cons_self, List.mem_cons_of_mem _ List.mem_cons_self⟩
    · obtain ⟨hkey, hvalue⟩ := ih h
      exact ⟨List.mem_cons_of_mem _ (List.mem_cons_of_mem _ hkey),
        List.mem_cons_of_mem _ (List.mem_cons_of_mem _ hvalue)⟩
  | case2 => cases h

theorem mem_put_iff {key : String} {node : Node} {es : List Entry}
    (hnodup : (es.map (·.key)).Nodup) {e : Entry} :
    e ∈ put key node es ↔ e = ⟨key, node⟩ ∨ e ∈ es ∧ e.key ≠ key := by
  induction es with
  | nil => simp [put]
  | cons first rest ih =>
    obtain ⟨hfirst, hrest⟩ := List.nodup_cons.1 hnodup
    rw [put]
    by_cases hkey : first.key = key
    · -- The first entry is replaced, and no other one has its key.
      subst hkey
      have hother : ∀ e ∈ rest, e.key ≠ first.key := fun e he heq =>
        hfirst (List.mem_map.2 ⟨e, he, heq⟩)
      rw [if_pos (beq_self_eq_true _), List.mem_cons, List.mem_cons]
      constructor
      · rintro (he | he)
        exacts [.inl he, .inr ⟨.inr he, hother e he⟩]
      · rintro (he | ⟨rfl | he, hne⟩)
        exacts [.inl he, absurd rfl hne, .inr he]
    · rw [if_neg (by simpa using hkey), List.mem_cons, ih hrest, List.mem_cons]
      constructor
      · rintro (rfl | he | he)
        exacts [.inr ⟨.inl rfl, hkey⟩, .inl he, .inr ⟨.inr he.1, he.2⟩]
      · rintro (he | ⟨rfl | he, hne⟩)
        exacts [.inr (.inl he), .inl rfl, .inr (.inr ⟨he, hne⟩)]

theorem putPair_eq (es : List Entry) (p : Node × Node) :
    putPair anchors es p = (entryOf? anchors p).elim es fun e => put e.key e.node es := by
  rw [putPair, entryOf?]
  cases p.1.resolve? anchors <;> rfl

/-- **`entriesOf ps` are the entries of `ps`, collapsed to the last one of each key.** -/
theorem collapsed_entriesOf (anchors : Anchors) (ps : List (Node × Node)) :
    Collapsed (·.key) (ps.filterMap (entryOf? anchors)) (entriesOf anchors ps) := by
  induction ps using List.reverseRecOn with
  | nil => exact .nil
  | append_singleton ps p ih =>
    have hput : entriesOf anchors (ps ++ [p]) = putPair anchors (entriesOf anchors ps) p := by
      rw [entriesOf, List.foldl_append]
      rfl
    rw [hput, putPair_eq, List.filterMap_append]
    cases hp : entryOf? anchors p with
    | none =>
      -- A pair whose key cannot be resolved is no step of the history.
      rw [List.filterMap_cons_none hp, List.filterMap_nil, List.append_nil]
      exact ih
    | some e =>
      rw [List.filterMap_cons_some hp, List.filterMap_nil]
      exact ih.concat (map_key_put e.key e.node _) fun _ => mem_put_iff ih.nodup

/-- The entries are those of pairs after which no pair has their key. -/
theorem mem_entriesOf_iff {ps : List (Node × Node)} {e : Entry} :
    e ∈ entriesOf anchors ps ↔ ∃ before p after, ps = before ++ p :: after ∧
      entryOf? anchors p = some e ∧
      ∀ q ∈ after, ∀ e', entryOf? anchors q = some e' → e'.key ≠ e.key :=
  ((collapsed_entriesOf anchors ps).mem_iff e).trans isLast_filterMap_iff

/-- The entry of a pair, by the meaning of its key. -/
theorem Resolves.entryOf?_eq_some_iff {p : Node × Node} (h : Resolves anchors p.1) {e : Entry} :
    entryOf? anchors p = some e ↔
      (∃ m, Means anchors p.1 m ∧ m.keyText = e.key) ∧ p.2 = e.node := by
  obtain ⟨k, hmeans, -, hresolve⟩ := h.exists_resolve?
  rw [entryOf?, hresolve, Option.map_some, Option.some_inj]
  constructor
  · rintro rfl
    exact ⟨⟨k, hmeans, rfl⟩, rfl⟩
  · rintro ⟨⟨m, hm, hkey⟩, hnode⟩
    obtain rfl := hmeans.unique hm
    rw [hkey, hnode]

/-- **The entries of a mapping are the pairs that `Survives`.** -/
theorem mem_entries_iff (hlinked : Linked anchors (.mapping children))
    (htargets : AreTargets anchors) {e : Entry} :
    e ∈ entries anchors (.mapping children) ↔ Survives anchors children e.key e.node := by
  have hkeys : ∀ p ∈ pairs children, Resolves anchors p.1 := by
    intro p hp
    cases hlinked with
    | mapping h => exact (h p.1 (mem_of_mem_pairs hp).1).resolves htargets
  have hentries : entries anchors (.mapping children) = entriesOf anchors (pairs children) := rfl
  rw [hentries, mem_entriesOf_iff]
  constructor
  · rintro ⟨before, ⟨k, node⟩, after, hpairs, hp, hafter⟩
    have hmem : ∀ q ∈ (k, node) :: after, Resolves anchors q.1 := fun q hq =>
      hkeys q (hpairs ▸ List.mem_append_right before hq)
    obtain ⟨hkey, rfl⟩ := (hmem _ List.mem_cons_self).entryOf?_eq_some_iff.1 hp
    refine ⟨before, k, after, hpairs, hkey, fun q hq m hm hmkey => ?_⟩
    have hq' := hmem q (List.mem_cons_of_mem _ hq)
    exact hafter q hq ⟨e.key, q.2⟩ (hq'.entryOf?_eq_some_iff.2 ⟨⟨m, hm, hmkey⟩, rfl⟩) rfl
  · rintro ⟨before, k, after, hpairs, hkey, hafter⟩
    have hmem : ∀ q ∈ (k, e.node) :: after, Resolves anchors q.1 := fun q hq =>
      hkeys q (hpairs ▸ List.mem_append_right before hq)
    refine ⟨before, (k, e.node), after, hpairs, ?_, fun q hq e' he' => ?_⟩
    · exact (hmem _ List.mem_cons_self).entryOf?_eq_some_iff.2 ⟨hkey, rfl⟩
    · obtain ⟨⟨m, hm, hmkey⟩, -⟩ :=
        (hmem q (List.mem_cons_of_mem _ hq)).entryOf?_eq_some_iff.1 he'
      rw [← hmkey]
      exact hafter q hq m hm

/-! ### One level -/

theorem Means.inside_sequence_iff {items : List Node} (h : Means anchors n (.sequence items)) :
    Inside anchors n child ↔ child ∈ items := by
  constructor
  · intro hinside
    cases hinside with
    | item h' hchild =>
      obtain rfl := Node.sequence.inj (h.unique h')
      exact hchild
    | entry h' _ => cases h.unique h'
  · exact .item h

theorem Means.inside_mapping_iff (h : Means anchors n (.mapping children)) :
    Inside anchors n child ↔ ∃ key, Survives anchors children key child := by
  constructor
  · intro hinside
    cases hinside with
    | item h' _ => cases h.unique h'
    | entry h' hchild =>
      obtain rfl := Node.mapping.inj (h.unique h')
      exact ⟨_, hchild⟩
  · rintro ⟨key, hchild⟩
    exact .entry h hchild

theorem Means.not_inside_scalar {s : Scalar} (h : Means anchors n (.scalar s)) :
    ¬ Inside anchors n child := by
  intro hinside
  cases hinside with
  | item h' _ => cases h.unique h'
  | entry h' _ => cases h.unique h'

theorem Inside.linked (hn : Resolves anchors n) (h : Inside anchors n child) :
    Linked anchors child := by
  cases h with
  | item hmeans hchild =>
    cases (hn.resolve?_of_means hmeans).2 with
    | sequence hitems => exact hitems child hchild
  | entry hmeans hchild =>
    obtain ⟨before, k, after, hpairs, -, -⟩ := hchild
    have hmem : (k, child) ∈ pairs _ :=
      hpairs ▸ List.mem_append_right before List.mem_cons_self
    cases (hn.resolve?_of_means hmeans).2 with
    | mapping hchildren => exact hchildren child (mem_of_mem_pairs hmem).2

theorem exists_mapM_eq_ok_iff {ε α β : Type} {f : α → Except ε β} {xs : List α} :
    (∃ ys, xs.mapM f = .ok ys) ↔ ∀ x ∈ xs, ∃ y, f x = .ok y := by
  constructor
  · rintro ⟨ys, hys⟩ x hx
    obtain ⟨y, -, hy⟩ := exists_of_forall₂ (mapM_eq_ok_iff.1 hys) hx
    exact ⟨y, hy⟩
  · intro h
    induction xs with
    | nil => exact ⟨[], rfl⟩
    | cons x rest ih =>
      obtain ⟨hx, hrest⟩ := List.forall_mem_cons.1 h
      obtain ⟨y, hy⟩ := hx
      obtain ⟨ys, hys⟩ := ih hrest
      refine ⟨y :: ys, ?_⟩
      rw [List.mapM_cons, hy, hys]
      rfl

section Levels

variable {levels : Nat} {v : Value}

theorem valueWithin_of_scalar {s : Scalar} (h : n.resolve? anchors = some (.scalar s)) :
    n.valueWithin anchors (levels + 1) = .ok v ↔ s.value? = some v := by
  rw [valueWithin, h]
  dsimp only
  cases s.value? with
  | none => simp
  | some w => simp

theorem valueWithin_of_sequence {items : List Node}
    (h : n.resolve? anchors = some (.sequence items)) :
    n.valueWithin anchors (levels + 1) = .ok v ↔
      ∃ values, items.mapM (valueWithin anchors levels) = .ok values ∧ v = .list values := by
  rw [valueWithin, h]
  dsimp only
  cases items.mapM (valueWithin anchors levels) with
  | error _ =>
    constructor
    · intro hok
      cases hok
    · rintro ⟨values, hok, -⟩
      cases hok
  | ok values =>
    constructor
    · intro hok
      exact ⟨values, rfl, (Except.ok.inj hok).symm⟩
    · rintro ⟨values', hok, rfl⟩
      cases hok
      rfl

theorem valueWithin_of_mapping (h : n.resolve? anchors = some (.mapping children)) :
    n.valueWithin anchors (levels + 1) = .ok v ↔
      ∃ fields, ((entries anchors (.mapping children)).mapM fun e => do
        return (e.key, ← valueWithin anchors levels e.node)) = .ok fields ∧ v = .map fields := by
  rw [valueWithin, h]
  dsimp only
  cases ((entries anchors (.mapping children)).mapM fun e => do
    return (e.key, ← valueWithin anchors levels e.node)) with
  | error _ =>
    constructor
    · intro hok
      cases hok
    · rintro ⟨fields, hok, -⟩
      cases hok
  | ok fields =>
    constructor
    · intro hok
      exact ⟨fields, rfl, (Except.ok.inj hok).symm⟩
    · rintro ⟨fields', hok, rfl⟩
      cases hok
      rfl

/-- **One level of `valueWithin`**: it succeeds exactly if it succeeds with one level less on all
that is `Inside`, and if a scalar has a value. -/
theorem exists_valueWithin_succ_iff (htargets : AreTargets anchors) (hn : Resolves anchors n) :
    (∃ v, n.valueWithin anchors (levels + 1) = .ok v) ↔
      (∀ child, Inside anchors n child → ∃ v, child.valueWithin anchors levels = .ok v) ∧
        ∀ s, Means anchors n (.scalar s) → s.value?.isSome = true := by
  obtain ⟨m, hmeans, hm, hresolve⟩ := hn.exists_resolve?
  cases hm with
  | scalar s =>
    simp only [valueWithin_of_scalar hresolve]
    constructor
    · rintro ⟨v, hv⟩
      refine ⟨fun child hchild => absurd hchild hmeans.not_inside_scalar, fun s' hs' => ?_⟩
      obtain rfl := Node.scalar.inj (hmeans.unique hs')
      rw [hv]
      rfl
    · rintro ⟨-, hs⟩
      exact Option.isSome_iff_exists.1 (hs s hmeans)
  | @sequence items _ =>
    have hnot : ∀ s, ¬ Means anchors n (.scalar s) := fun s hs => by cases hmeans.unique hs
    have hvalue : (∃ v, n.valueWithin anchors (levels + 1) = .ok v) ↔
        ∃ values, items.mapM (valueWithin anchors levels) = .ok values := by
      simp only [valueWithin_of_sequence hresolve]
      constructor
      · rintro ⟨_, values, hvalues, -⟩
        exact ⟨values, hvalues⟩
      · rintro ⟨values, hvalues⟩
        exact ⟨.list values, values, hvalues, rfl⟩
    rw [hvalue, exists_mapM_eq_ok_iff]
    simp only [hmeans.inside_sequence_iff]
    exact ⟨fun h => ⟨h, fun s hs => absurd hs (hnot s)⟩, fun h => h.1⟩
  | @mapping children hchildren =>
    have hnot : ∀ s, ¬ Means anchors n (.scalar s) := fun s hs => by cases hmeans.unique hs
    have hinside : ∀ child, Inside anchors n child ↔
        ∃ e ∈ entries anchors (.mapping children), e.node = child := by
      intro child
      rw [hmeans.inside_mapping_iff]
      constructor
      · rintro ⟨key, hkey⟩
        exact ⟨⟨key, child⟩, (mem_entries_iff (.mapping hchildren) htargets).2 hkey, rfl⟩
      · rintro ⟨e, he, rfl⟩
        exact ⟨e.key, (mem_entries_iff (.mapping hchildren) htargets).1 he⟩
    simp only [valueWithin_of_mapping hresolve, hinside]
    constructor
    · rintro ⟨_, fields, hfields, -⟩
      refine ⟨?_, fun s hs => absurd hs (hnot s)⟩
      rintro _ ⟨e, he, rfl⟩
      obtain ⟨f, -, -, hf⟩ := exists_of_forall₂ (fields_of_mapM hfields) he
      exact ⟨f.2, hf⟩
    · rintro ⟨hvalues, -⟩
      obtain ⟨fields, hfields⟩ := exists_mapM fun e he => hvalues e.node ⟨e, he, rfl⟩
      exact ⟨_, fields, hfields, rfl⟩
  | anchored => exact absurd rfl (hmeans.ne_alias _)

/-! ### The whole unfolding -/

/-- **`valueWithin` succeeds exactly if every `Path` is shorter than `levels`** and `ScalarsDecode`.
-/
theorem exists_valueWithin_iff (htargets : AreTargets anchors) (hn : Resolves anchors n) :
    (∃ v, n.valueWithin anchors levels = .ok v) ↔
      (∀ k m, Path anchors k n m → k < levels) ∧ ScalarsDecode anchors n := by
  induction levels generalizing n with
  | zero =>
    rw [valueWithin]
    constructor
    · rintro ⟨v, hv⟩
      cases hv
    · rintro ⟨hshort, -⟩
      exact absurd (hshort 0 n (.here n)) (Nat.lt_irrefl 0)
  | succ levels ih =>
    have hchildren : ∀ child, Inside anchors n child → Resolves anchors child :=
      fun child hchild => (hchild.linked hn).resolves htargets
    rw [exists_valueWithin_succ_iff htargets hn]
    constructor
    · rintro ⟨hvalues, hscalar⟩
      refine ⟨fun k m hpath => ?_, fun k m s hpath hs => ?_⟩
      · cases hpath with
        | here => exact Nat.succ_pos levels
        | @step k _ child _ hchild hrest =>
          have hshort := ((ih (hchildren child hchild)).1 (hvalues child hchild)).1 k m hrest
          omega
      · cases hpath with
        | here => exact hscalar s hs
        | @step k _ child _ hchild hrest =>
          exact ((ih (hchildren child hchild)).1 (hvalues child hchild)).2 k m s hrest hs
    · rintro ⟨hshort, hscalars⟩
      refine ⟨fun child hchild => (ih (hchildren child hchild)).2 ⟨fun k m hpath => ?_, ?_⟩,
        fun s hs => hscalars 0 n s (.here n) hs⟩
      · have := hshort (k + 1) m (.step hchild hpath)
        omega
      · intro k m s hpath hs
        exact hscalars (k + 1) m s (.step hchild hpath) hs

/-- **`valueWithin` computes `Unfolds`.** -/
theorem unfolds_of_valueWithin (htargets : AreTargets anchors) (hn : Resolves anchors n)
    (h : n.valueWithin anchors levels = .ok v) : Unfolds anchors n v := by
  induction levels generalizing n v with
  | zero =>
    rw [valueWithin] at h
    cases h
  | succ levels ih =>
    have hchild : ∀ {child w}, Inside anchors n child →
        child.valueWithin anchors levels = .ok w → Unfolds anchors child w :=
      fun hinside => ih ((hinside.linked hn).resolves htargets)
    obtain ⟨m, hmeans, hm, hresolve⟩ := hn.exists_resolve?
    cases hm with
    | scalar s => exact .scalar hmeans ((valueWithin_of_scalar hresolve).1 h)
    | sequence _ =>
      obtain ⟨values, hvalues, rfl⟩ := (valueWithin_of_sequence hresolve).1 h
      have hforall := mapM_eq_ok_iff.1 hvalues
      refine .sequence hmeans hforall.length_eq fun i child w hget hget' => ?_
      obtain ⟨hi, rfl⟩ := List.getElem?_eq_some_iff.1 hget
      obtain ⟨hi', rfl⟩ := List.getElem?_eq_some_iff.1 hget'
      exact hchild (.item hmeans (List.getElem_mem hi)) (hforall.get hi hi')
    | @mapping children hchildren =>
      obtain ⟨fields, hfields, rfl⟩ := (valueWithin_of_mapping hresolve).1 h
      have hnames := map_fst_of_mapM hfields
      have hnodup := nodup_map_key_entries anchors (.mapping children)
      have hmem : ∀ e, e ∈ entries anchors (.mapping children) ↔
          Survives anchors children e.key e.node :=
        fun e => mem_entries_iff (.mapping hchildren) htargets
      refine .mapping hmeans (hnames ▸ hnodup) (fun key => ?_) fun key child w hsurvives hw => ?_
      · rw [hnames, List.mem_map]
        constructor
        · rintro ⟨e, he, rfl⟩
          exact ⟨e.node, (hmem e).1 he⟩
        · rintro ⟨child, hsurvives⟩
          exact ⟨⟨key, child⟩, (hmem _).2 hsurvives, rfl⟩
      · obtain ⟨e, he, rfl, hvalue⟩ := exists_of_forall₂ (fields_of_mapM hfields).flip hw
        -- Keys are different, so this is the entry of the surviving pair.
        have heq : e = ⟨e.key, child⟩ :=
          List.inj_on_of_nodup_map hnodup he ((hmem ⟨e.key, child⟩).2 hsurvives) rfl
        have hnode : e.node = child := congrArg Entry.node heq
        rw [hnode] at hvalue
        exact hchild (.entry hmeans hsurvives) hvalue
    | anchored => exact absurd rfl (hmeans.ne_alias _)

end Levels

/-- Two values of one unfolding are alike. -/
theorem Unfolds.alike {v v' : Value} (h : Unfolds anchors n v) (h' : Unfolds anchors n v') :
    v.Alike v' := by
  induction h generalizing v' with
  | scalar h hv =>
    cases h' with
    | scalar h' hv' =>
      obtain rfl := Node.scalar.inj (h.unique h')
      obtain rfl := Option.some.inj (hv.symm.trans hv')
      exact .refl _
    | sequence h' => cases h.unique h'
    | mapping h' => cases h.unique h'
  | sequence h length_eq _ ih =>
    cases h' with
    | scalar h' => cases h.unique h'
    | sequence h' length_eq' hitems' =>
      obtain rfl := Node.sequence.inj (h.unique h')
      refine .list (length_eq.symm.trans length_eq') fun i w w' hw hw' => ?_
      obtain ⟨hi, -⟩ := List.getElem?_eq_some_iff.1 hw
      have hchild := List.getElem?_eq_getElem (length_eq ▸ hi)
      exact ih i _ w hchild hw (hitems' i _ w' hchild hw')
    | mapping h' => cases h.unique h'
  | mapping h nodup keys _ ih =>
    cases h' with
    | scalar h' => cases h.unique h'
    | sequence h' => cases h.unique h'
    | mapping h' nodup' keys' hfields' =>
      obtain rfl := Node.mapping.inj (h.unique h')
      refine .map nodup nodup' (fun key => (keys key).trans (keys' key).symm) ?_
      intro key w w' hw hw'
      obtain ⟨child, hsurvives⟩ := (keys key).1 (List.mem_map_of_mem hw)
      exact ih key child w hsurvives hw (hfields' key child w' hsurvives hw')

/-! ### Cycles -/

theorem Path.append {k l : Nat} {o : Node} (h : Path anchors k n m) (h' : Path anchors l m o) :
    Path anchors (k + l) n o := by
  induction h with
  | here => rwa [Nat.zero_add]
  | step hchild _ ih =>
    rw [Nat.add_right_comm]
    exact .step hchild (ih h')

theorem exists_path (h : Relation.ReflTransGen (Inside anchors) n m) :
    ∃ k, Path anchors k n m := by
  induction h using Relation.ReflTransGen.head_induction_on with
  | refl => exact ⟨0, .here m⟩
  | head hchild _ ih =>
    obtain ⟨k, hpath⟩ := ih
    exact ⟨k + 1, .step hchild hpath⟩

/-- A cycle of length `k` gives paths of length `times * k`. -/
theorem Path.around {k : Nat} (h : Path anchors k n n) (times : Nat) :
    Path anchors (times * k) n n := by
  induction times with
  | zero =>
    rw [Nat.zero_mul]
    exact .here n
  | succ times ih =>
    rw [Nat.succ_mul]
    exact ih.append h

/-- **An unfolding with a cycle has no depth.** -/
theorem not_depthAtMost_of_cycle (hreach : Relation.ReflTransGen (Inside anchors) n m)
    (hcycle : Relation.TransGen (Inside anchors) m m) (depth : Nat) :
    ¬ DepthAtMost anchors depth n := by
  intro hdepth
  obtain ⟨k, hpath⟩ := exists_path hreach
  obtain ⟨child, hchild, hback⟩ := Relation.TransGen.head'_iff.1 hcycle
  obtain ⟨l, hrest⟩ := exists_path hback
  have haround : Path anchors ((depth + 1) * (l + 1)) m m :=
    (Path.step hchild hrest).around (depth + 1)
  have hle := hdepth _ _ (hpath.append haround)
  have hlong : depth + 1 ≤ (depth + 1) * (l + 1) := Nat.le_mul_of_pos_right _ (Nat.succ_pos l)
  omega

/-! ### Documents -/

theorem wellFounded_calls (anchors : Anchors) : WellFounded (Calls anchors) := by
  -- The deeper a call is, the fewer can follow.
  refine Subrelation.wf ?_ (measure fun call : Nat × Node => maxDepth + 1 - call.1).wf
  rintro callee caller ⟨hdepth, hnext, -⟩
  show maxDepth + 1 - callee.1 < maxDepth + 1 - caller.1
  omega

/-- **Graphs are converted safely.**  `resolveWithin` finds every node in three steps, and `Calls`
is well-founded.  `value` succeeds exactly if `DepthAtMost maxDepth` and `ScalarsDecode`, and then
it is the value that `Unfolds`, up to `Alike`.  If a cycle can be reached, it is an error. -/
theorem value_of_isGraph {t : Tree} (h : IsGraph t) :
    (∀ n, n = t.root ∨ Linked t.anchors n →
      ∃ m, Means t.anchors n m ∧ ∀ steps, 3 ≤ steps → n.resolveWithin t.anchors steps = some m) ∧
    WellFounded (Calls t.anchors) ∧
    ((∃ v, t.root.value t.anchors = .ok v) ↔
      DepthAtMost t.anchors maxDepth t.root ∧ ScalarsDecode t.anchors t.root) ∧
    (∀ v, t.root.value t.anchors = .ok v →
      Unfolds t.anchors t.root v ∧ ∀ v', Unfolds t.anchors t.root v' → v.Alike v') ∧
    ∀ n, Relation.ReflTransGen (Inside t.anchors) t.root n →
      Relation.TransGen (Inside t.anchors) n n → ∃ e, t.root.value t.anchors = .error e := by
  have hroot := h.resolves_root
  have hvalue : (∃ v, t.root.value t.anchors = .ok v) ↔
      DepthAtMost t.anchors maxDepth t.root ∧ ScalarsDecode t.anchors t.root := by
    unfold value DepthAtMost
    simp only [exists_valueWithin_iff h.targets hroot, Nat.lt_succ_iff]
  refine ⟨?_, wellFounded_calls t.anchors, hvalue, fun v hv => ?_, fun n hreach hcycle => ?_⟩
  · intro n hn
    have hresolves : Resolves t.anchors n := by
      rcases hn with rfl | hn
      exacts [hroot, hn.resolves h.targets]
    obtain ⟨m, hmeans, -, hresolve⟩ := hresolves
    exact ⟨m, hmeans, hresolve⟩
  · have hunfolds := unfolds_of_valueWithin h.targets hroot hv
    exact ⟨hunfolds, fun v' => hunfolds.alike⟩
  · cases hresult : t.root.value t.anchors with
    | error e => exact ⟨e, rfl⟩
    | ok v =>
      have hdepth := (hvalue.1 ⟨v, hresult⟩).1
      exact absurd hdepth (not_depthAtMost_of_cycle hreach hcycle maxDepth)

/-- A mapping with two pairs for the key `a`, which is anchored. -/
def repeatedKey (first second : Node) : Tree where
  root := .document [.mapping [ofText "a", first, ofText "a", second]]
  anchors := #[.mapping [ofText "a", first, ofText "a", second]]

theorem isGraph_repeatedKey {first second : Node}
    (hfirst : Linked (repeatedKey first second).anchors first)
    (hsecond : Linked (repeatedKey first second).anchors second) :
    IsGraph (repeatedKey first second) := by
  have hmapping : Linked (repeatedKey first second).anchors
      (.mapping [ofText "a", first, ofText "a", second]) := by
    refine .mapping fun n hn => ?_
    simp only [List.mem_cons, List.not_mem_nil, or_false] at hn
    rcases hn with rfl | rfl | rfl | rfl
    exacts [.scalar _, hfirst, .scalar _, hsecond]
  refine ⟨.inr ⟨_, [], rfl, hmapping⟩, fun a n hget => ?_⟩
  obtain ⟨ha, rfl⟩ := Array.getElem?_eq_some_iff.1 hget
  obtain rfl : a = 0 := Nat.lt_one_iff.1 ha
  exact ⟨hmapping, fun b hb => by cases hb⟩

/-- With the alias of the mapping in the second pair, there is a cycle and `value` fails; in the
first pair it does no harm. -/
theorem value_of_isGraph_repeatedKey :
    (IsGraph (repeatedKey (ofText "b") (.alias 0)) ∧
      ∃ e, (repeatedKey (ofText "b") (.alias 0)).root.value
        (repeatedKey (ofText "b") (.alias 0)).anchors = .error e) ∧
    IsGraph (repeatedKey (.alias 0) (ofText "b")) ∧
      Unfolds (repeatedKey (.alias 0) (ofText "b")).anchors
        (repeatedKey (.alias 0) (ofText "b")).root (.map [("a", .text "b")]) := by
  have hcyclic : IsGraph (repeatedKey (ofText "b") (.alias 0)) :=
    isGraph_repeatedKey (.scalar _) (.anchored rfl)
  have hplain : IsGraph (repeatedKey (.alias 0) (ofText "b")) :=
    isGraph_repeatedKey (.anchored rfl) (.scalar _)
  refine ⟨⟨hcyclic, ?_⟩, hplain, ?_⟩
  · have hsurvives : Survives (repeatedKey (ofText "b") (.alias 0)).anchors
        [ofText "a", ofText "b", ofText "a", .alias 0] "a" (.alias 0) :=
      ⟨[(ofText "a", ofText "b")], ofText "a", [], rfl, ⟨_, .scalar _, rfl⟩, by simp⟩
    exact (value_of_isGraph hcyclic).2.2.2.2 (.alias 0)
      (.single (.entry (.document (.mapping _)) hsurvives))
      (.single (.entry (.anchored rfl (.mapping _)) hsurvives))
  · exact ((value_of_isGraph hplain).2.2.2.1 _ rfl).1

end SchemaPress.Node
