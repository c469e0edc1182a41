import SchemaPress.Proofs.Node.Unfolding

/-!
# Looking up keys

A mapping is read by its pairs.  `Reaches` leads to it, step by step through document nodes and
aliases, and `resolve?` follows it for fewer than `maxDepth` steps (`resolve?_eq_some_iff`), which
in a document is always far enough (`IsGraph.steps_lt`).  The entries of a mapping are its pairs,
collapsed to the last one of each key (`collapsed_entriesOf`), and to look up a key is to resolve
the value of its last pair (`IsRead`).
-/

namespace SchemaPress.Node

variable {anchors : Anchors} {n m node : Node} {children : List Node} {steps : Nat}

/-! ### Reaching a node -/

/-- `Reaches anchors steps n m`: from `n`, `m` is reached in `steps` steps through documents and
aliases. -/
inductive Reaches (anchors : Anchors) : Nat → Node → Node → Prop
  | here (n : Node) : Reaches anchors 0 n n
  | document {steps : Nat} {n m : Node} {rest : List Node} (h : Reaches anchors steps n m) :
      Reaches anchors (steps + 1) (.document (n :: rest)) m
  | anchored {steps a : Nat} {n m : Node} (ha : anchors[a]? = some n)
      (h : Reaches anchors steps n m) : Reaches anchors (steps + 1) (.alias a) m

/-- A scalar, a sequence or a mapping. -/
inductive IsContent : Node → Prop
  | scalar (s : Scalar) : IsContent (.scalar s)
  | sequence (items : List Node) : IsContent (.sequence items)
  | mapping (children : List Node) : IsContent (.mapping children)

theorem IsContent.resolveWithin (h : IsContent m) (steps : Nat) :
    m.resolveWithin anchors (steps + 1) = some m := by
  cases h <;> rfl

/-- From content, only the node itself is reached. -/
theorem IsContent.eq_of_reaches (h : IsContent n) (hreach : Reaches anchors steps n m) :
    steps = 0 ∧ m = n := by
  cases h <;> cases hreach <;> exact ⟨rfl, rfl⟩

theorem resolveWithin_eq_some_iff {bound : Nat} :
    n.resolveWithin anchors bound = some m ↔
      IsContent m ∧ ∃ steps < bound, Reaches anchors steps n m := by
  induction bound generalizing n with
  | zero => simp [resolveWithin]
  | succ bound ih =>
    -- Three kinds of nodes are resolved at once; only an alias or a document node uses up a step.
    have hcontent (hn : IsContent n) : n.resolveWithin anchors (bound + 1) = some m ↔
        IsContent m ∧ ∃ steps < bound + 1, Reaches anchors steps n m := by
      rw [hn.resolveWithin, Option.some_inj]
      constructor
      · rintro rfl
        exact ⟨hn, 0, Nat.succ_pos bound, .here n⟩
      · rintro ⟨-, steps, -, hreach⟩
        exact (hn.eq_of_reaches hreach).2.symm
    cases n with
    | scalar s => exact hcontent (.scalar s)
    | sequence items => exact hcontent (.sequence items)
    | mapping children => exact hcontent (.mapping children)
    | «alias» a =>
      rw [resolveWithin]
      constructor
      · intro h
        split at h
        · rename_i n ha
          obtain ⟨hm, steps, hsteps, hreach⟩ := ih.1 h
          exact ⟨hm, steps + 1, Nat.succ_lt_succ hsteps, .anchored ha hreach⟩
        · cases h
      · rintro ⟨hm, steps, hsteps, hreach⟩
        cases hreach with
        | here => cases hm
        | anchored ha hreach =>
          rw [ha]
          exact ih.2 ⟨hm, _, Nat.lt_of_succ_lt_succ hsteps, hreach⟩
    | document content =>
      cases content with
      | nil =>
        rw [resolveWithin]
        constructor
        · intro h
          cases h
        · rintro ⟨hm, steps, -, hreach⟩
          cases hreach
          cases hm
      | cons n rest =>
        rw [resolveWithin, ih]
        refine and_congr_right fun hm => ?_
        constructor
        · rintro ⟨steps, hsteps, hreach⟩
          exact ⟨steps + 1, Nat.succ_lt_succ hsteps, .document hreach⟩
        · rintro ⟨steps, hsteps, hreach⟩
          cases hreach with
          | here => cases hm
          | document hreach => exact ⟨_, Nat.lt_of_succ_lt_succ hsteps, hreach⟩

theorem resolve?_eq_some_iff :
    n.resolve? anchors = some m ↔ IsContent m ∧ ∃ steps < maxDepth, Reaches anchors steps n m :=
  resolveWithin_eq_some_iff

theorem resolve?_eq_mapping_iff :
    n.resolve? anchors = some (.mapping children) ↔
      ∃ steps < maxDepth, Reaches anchors steps n (.mapping children) := by
  rw [resolve?_eq_some_iff]
  exact and_iff_right (.mapping children)

/-- From a `Linked` node, it is one step at most. -/
theorem Linked.steps_le (h : Linked anchors n) (htargets : AreTargets anchors)
    (hreach : Reaches anchors steps n m) : steps ≤ 1 := by
  have hcontent : ∀ {n : Node}, Linked anchors n → (∀ a, n ≠ .alias a) → IsContent n := by
    intro n hn hne
    cases hn with
    | scalar s => exact .scalar s
    | sequence => exact .sequence _
    | mapping => exact .mapping _
    | anchored => exact absurd rfl (hne _)
  cases hreach with
  | here => exact Nat.zero_le 1
  | document => cases h
  | anchored ha hreach =>
    obtain ⟨hlinked, hne⟩ := htargets _ _ ha
    rw [((hcontent hlinked hne).eq_of_reaches hreach).1]

/-- **In a document, everything is reached in fewer than `maxDepth` steps.** -/
theorem IsGraph.steps_lt {t : Tree} (h : IsGraph t) (hn : n = t.root ∨ Linked t.anchors n)
    (hreach : Reaches t.anchors steps n m) : steps < maxDepth := by
  have hsteps : steps ≤ 2 := by
    rcases hn with rfl | hn
    · rcases h.root with hroot | ⟨first, rest, hroot, hfirst⟩
      · exact Nat.le_succ_of_le (hroot.steps_le h.targets hreach)
      · rw [hroot] at hreach
        cases hreach with
        | here => exact Nat.zero_le 2
        | document hreach => exact Nat.succ_le_succ (hfirst.steps_le h.targets hreach)
    · exact Nat.le_succ_of_le (hn.steps_le h.targets hreach)
  exact Nat.lt_of_le_of_lt hsteps (by decide)

/-! ### Pairs -/

/-- The `i`-th pair has the children `2 i` and `2 i + 1`. -/
theorem getElem?_pairs {i : Nat} {k v : Node} :
    (pairs children)[i]? = some (k, v) ↔
      children[2 * i]? = some k ∧ children[2 * i + 1]? = some v := by
  fun_induction pairs children generalizing i with
  | case1 key value rest ih =>
    cases i with
    | zero => simp
    | succ i =>
      rw [List.getElem?_cons_succ, ih, Nat.mul_succ]
      rfl
  | case2 children hshort =>
    rw [List.getElem?_nil]
    rcases children with _ | ⟨child, _ | ⟨value, rest⟩⟩
    · simp
    · simp
    · exact absurd rfl (hshort child value rest)

/-- `pairs` ignores a last child that has no partner. -/
theorem pairs_concat (child : Node) (heven : children.length % 2 = 0) :
    pairs (children ++ [child]) = pairs children := by
  fun_induction pairs children with
  | case1 key value rest ih =>
    rw [List.cons_append, List.cons_append, pairs, ih]
    rw [List.length_cons, List.length_cons] at heven
    omega
  | case2 children hshort =>
    rcases children with _ | ⟨child, _ | ⟨value, rest⟩⟩
    · rfl
    · cases heven
    · exact absurd rfl (hshort child value rest)

/-- The key of the pair is resolved to a scalar with the text `key`. -/
def HasKey (anchors : Anchors) (key : String) (pair : Node × Node) : Prop :=
  ∃ k, pair.1.resolve? anchors = some k ∧ k.keyText = key

theorem entryOf?_eq_some_iff {pair : Node × Node} {e : Entry} :
    entryOf? anchors pair = some e ↔ HasKey anchors e.key pair ∧ pair.2 = e.node := by
  rw [entryOf?, Option.map_eq_some_iff]
  constructor
  · rintro ⟨k, hk, rfl⟩
    exact ⟨⟨k, hk, rfl⟩, rfl⟩
  · rintro ⟨⟨k, hk, hkey⟩, hnode⟩
    exact ⟨k, hk, by rw [hkey, hnode]⟩

/-- The entry of a pair that does not have the key `key` has another key. -/
theorem key_ne_of_entryOf? {key : String} {pair : Node × Node} {e : Entry}
    (h : ¬ HasKey anchors key pair) (he : entryOf? anchors pair = some e) : e.key ≠ key := by
  rintro rfl
  exact h (entryOf?_eq_some_iff.1 he).1

/-! ### What is found in a mapping -/

theorem entries_of_resolve?_eq (h : node.resolve? anchors = some (.mapping children)) :
    node.entries anchors = entriesOf anchors (pairs children) := by
  rw [entries, h]
  rfl

theorem lookup?_of_resolve?_eq (h : node.resolve? anchors = some (.mapping children))
    (key : String) :
    node.lookup? anchors key =
      (((pairs children).filterMap (entryOf? anchors)).reverse.find? (·.key == key)).bind
        fun e => e.node.resolve? anchors := by
  rw [lookup?, entries_of_resolve?_eq h, (collapsed_entriesOf anchors _).find?_eq key]
  cases List.find? _ _ <;> rfl

/-- `lookup?` finds the value of the last pair with the key. -/
theorem lookup?_of_last (h : node.resolve? anchors = some (.mapping children)) {key : String}
    {before after : List (Node × Node)} {k v : Node}
    (hpairs : pairs children = before ++ (k, v) :: after) (hkey : HasKey anchors key (k, v))
    (hafter : ∀ p ∈ after, ¬ HasKey anchors key p) :
    node.lookup? anchors key = v.resolve? anchors := by
  have hlast : IsLast (·.key) ((pairs children).filterMap (entryOf? anchors)) ⟨key, v⟩ :=
    isLast_filterMap_iff.2 ⟨before, (k, v), after, hpairs, entryOf?_eq_some_iff.2 ⟨hkey, rfl⟩,
      fun p hp _ => key_ne_of_entryOf? (hafter p hp)⟩
  rw [lookup?_of_resolve?_eq h, isLast_iff_find?.1 hlast, Option.bind_some]

/-- `lookup?` finds nothing if no pair has the key. -/
theorem lookup?_of_forall_not (h : node.resolve? anchors = some (.mapping children)) {key : String}
    (hnone : ∀ p ∈ pairs children, ¬ HasKey anchors key p) : node.lookup? anchors key = none := by
  have hfind : ((pairs children).filterMap (entryOf? anchors)).reverse.find? (·.key == key) =
      none := by
    rw [List.find?_eq_none]
    intro e he hkey
    obtain ⟨p, hp, hentry⟩ := List.mem_filterMap.1 (List.mem_reverse.1 he)
    exact key_ne_of_entryOf? (hnone p hp) hentry (beq_iff_eq.1 hkey)
  rw [lookup?_of_resolve?_eq h, hfind, Option.bind_none]

/-- `node` is read as the mapping with these `children`. -/
structure IsRead (anchors : Anchors) (children : List Node) (node : Node) : Prop where
  keys_nodup : ((node.entries anchors).map (·.key)).Nodup
  /-- The entries are those of the pairs, `Collapsed` to the last one of each key. -/
  collapsed : Collapsed (·.key) ((pairs children).filterMap (entryOf? anchors))
    (node.entries anchors)
  /-- The `i`-th pair has the children `2 i` and `2 i + 1`. -/
  paired : ∀ (i : Nat) (k v : Node), (pairs children)[i]? = some (k, v) ↔
    children[2 * i]? = some k ∧ children[2 * i + 1]? = some v
  /-- A last child without a partner makes no difference. -/
  unpaired : ∀ child, children.length % 2 = 0 →
    entries anchors (.mapping (children ++ [child])) = node.entries anchors
  /-- `lookup?` finds the value of the last pair with the key. -/
  lookup?_of_last : ∀ key before k v after, pairs children = before ++ (k, v) :: after →
    HasKey anchors key (k, v) → (∀ p ∈ after, ¬ HasKey anchors key p) →
      node.lookup? anchors key = v.resolve? anchors
  /-- `lookup?` finds nothing if no pair has the key. -/
  lookup?_of_none : ∀ key, (∀ p ∈ pairs children, ¬ HasKey anchors key p) →
    node.lookup? anchors key = none

theorem isRead_of_resolve? (h : node.resolve? anchors = some (.mapping children)) :
    IsRead anchors children node := by
  have hentries := entries_of_resolve?_eq h
  have hcollapsed := collapsed_entriesOf anchors (pairs children)
  rw [← hentries] at hcollapsed
  refine ⟨hcollapsed.nodup, hcollapsed, fun i k v => getElem?_pairs, fun child heven => ?_,
    fun _ _ _ _ _ => lookup?_of_last h, fun _ => lookup?_of_forall_not h⟩
  rw [hentries, ← pairs_concat child heven]
  rfl

/-- A node of a document: the root, or one that is `Linked`. -/
def InDocument (anchors : Anchors) (node : Node) : Prop :=
  ∃ t, IsGraph t ∧ t.anchors = anchors ∧ (node = t.root ∨ Linked anchors node)

/-- **What is found in a node.**  A node from which a mapping is reached in fewer than `maxDepth`
steps, or that is `InDocument`, is read as that mapping (`IsRead`).  If no mapping is reached in
fewer than `maxDepth` steps, `entries` is empty and `lookup?` finds nothing.

A chain of `maxDepth` aliases outside a document is thereby left out: `entries` does not follow it
to its end.  No parser builds one, since an alias stands for an anchored node and not for another
alias. -/
theorem reads_mapping (anchors : Anchors) (node : Node) :
    (∀ steps children, Reaches anchors steps node (.mapping children) →
      steps < maxDepth ∨ InDocument anchors node → IsRead anchors children node) ∧
    ((∀ steps children, Reaches anchors steps node (.mapping children) → maxDepth ≤ steps) →
      node.entries anchors = [] ∧ ∀ key, node.lookup? anchors key = none) := by
  refine ⟨fun steps children hreach hnear => ?_, fun hout => ?_⟩
  · have hsteps : steps < maxDepth := by
      rcases hnear with hsteps | ⟨t, ht, rfl, hnode⟩
      · exact hsteps
      · exact ht.steps_lt hnode hreach
    exact isRead_of_resolve? (resolve?_eq_mapping_iff.2 ⟨steps, hsteps, hreach⟩)
  · have hentries : node.entries anchors = [] := by
      unfold entries
      split
      · rename_i children hresolve
        obtain ⟨steps, hsteps, hreach⟩ := resolve?_eq_mapping_iff.1 hresolve
        exact absurd hsteps (Nat.not_lt.2 (hout steps children hreach))
      · rfl
    refine ⟨hentries, fun key => ?_⟩
    rw [lookup?, hentries]
    rfl

/-- The children of a mapping: a key that is an alias, a key whose alias leads nowhere, a key `b`,
the first key again, and a child without a partner. -/
def mixedChildren : List Node :=
  [.alias 0, ofText "first", .alias 2, ofText "lost", ofText "b", .alias 0,
    ofText "a", ofText "last", ofText "rest"]

/-- The anchored nodes: the key, and the mapping itself. -/
def mixedAnchors : Anchors := #[ofText "a", .mapping mixedChildren]

/-- A mapping that is reached through a document and an alias, with two keys and the last value of
each. -/
theorem reads_mapping_mixed :
    Reaches mixedAnchors 2 (.document [.alias 1]) (.mapping mixedChildren) ∧
    IsRead mixedAnchors mixedChildren (.document [.alias 1]) ∧
    entries mixedAnchors (.document [.alias 1]) = [⟨"a", ofText "last"⟩, ⟨"b", .alias 0⟩] ∧
    lookup? mixedAnchors (.document [.alias 1]) "b" = some (ofText "a") := by
  have hreach : Reaches mixedAnchors 2 (.document [.alias 1]) (.mapping mixedChildren) :=
    .document (.anchored rfl (.here _))
  exact ⟨hreach, (reads_mapping mixedAnchors _).1 2 mixedChildren hreach (.inl (by decide)),
    rfl, rfl⟩

end SchemaPress.Node
