import Mathlib.Data.List.Forall2
import SchemaPress.Node.Denotation

/-!
# The same part of two documents

Aliases make a document a graph: what a node means depends on the anchored nodes that its aliases
lead to, and on nothing else of the document.  Two nodes have the `SameGraph` if a relation leads
from one to the other that is kept by every step into a child and along an alias
(`GraphRelation`); the numbers of the anchors may differ, and so may everything that cannot be
reached.

Nodes with the same graph have entries with the same keys and related nodes (`entries`), resolved
nodes that are related (`lookup?`), and the same value (`value_eq`).
-/

namespace SchemaPress.Node

/-- A relation `R` between the nodes of two documents that every step into a node keeps. -/
structure GraphRelation (anchors anchors' : Anchors) (R : Node → Node → Prop) : Prop where
  scalar : ∀ {s n}, R (.scalar s) n → n = .scalar s
  sequence : ∀ {items n}, R (.sequence items) n →
    ∃ items', n = .sequence items' ∧ List.Forall₂ R items items'
  mapping : ∀ {children n}, R (.mapping children) n →
    ∃ children', n = .mapping children' ∧ List.Forall₂ R children children'
  document : ∀ {content n}, R (.document content) n →
    ∃ content', n = .document content' ∧ List.Forall₂ R content content'
  anchored : ∀ {a n}, R (.alias a) n →
    ∃ a', n = .alias a' ∧ Option.Rel R anchors[a]? anchors'[a']?

/-- Some `GraphRelation` relates `m` and `n`: they look the same to every walk through the
documents. -/
def SameGraph (anchors : Anchors) (m : Node) (anchors' : Anchors) (n : Node) : Prop :=
  ∃ R, GraphRelation anchors anchors' R ∧ R m n

/-- `SameGraph` is reflexive. -/
theorem SameGraph.refl (anchors : Anchors) (n : Node) : SameGraph anchors n anchors n := by
  refine ⟨Eq, ⟨fun h => h.symm, ?_, ?_, ?_, ?_⟩, rfl⟩
  · rintro items n rfl
    exact ⟨items, rfl, List.forall₂_eq_eq_eq ▸ rfl⟩
  · rintro children n rfl
    exact ⟨children, rfl, List.forall₂_eq_eq_eq ▸ rfl⟩
  · rintro content n rfl
    exact ⟨content, rfl, List.forall₂_eq_eq_eq ▸ rfl⟩
  · rintro a n rfl
    refine ⟨a, rfl, ?_⟩
    cases anchors[a]? with
    | none => exact .none
    | some node => exact .some rfl

/-! ### Following documents and aliases -/

/-- `e` and `e'` have the same key, and `R` relates their nodes. -/
def EntryRel (R : Node → Node → Prop) (e e' : Entry) : Prop :=
  e.key = e'.key ∧ R e.node e'.node

/-- Two nodes of one kind.  Documents and aliases lead on to related nodes, and scalars have the
same text. -/
inductive SameKind (anchors anchors' : Anchors) (R : Node → Node → Prop) : Node → Node → Prop
  | scalar {s s' : Scalar} (h : s.text = s'.text) :
      SameKind anchors anchors' R (.scalar s) (.scalar s')
  | sequence (items items' : List Node) :
      SameKind anchors anchors' R (.sequence items) (.sequence items')
  | mapping (children children' : List Node) :
      SameKind anchors anchors' R (.mapping children) (.mapping children')
  | document {content content' : List Node} (h : Option.Rel R content.head? content'.head?) :
      SameKind anchors anchors' R (.document content) (.document content')
  | anchored {a a' : Nat} (h : Option.Rel R anchors[a]? anchors'[a']?) :
      SameKind anchors anchors' R (.alias a) (.alias a')

/-- A relation `R` between the nodes of two documents that is kept where a document or an alias
leads on.  What is inside of collections does not matter. -/
def FollowRelation (anchors anchors' : Anchors) (R : Node → Node → Prop) : Prop :=
  ∀ m n, R m n → SameKind anchors anchors' R m n

namespace FollowRelation

variable {anchors anchors' : Anchors} {R : Node → Node → Prop}

/-- `resolveWithin` takes related nodes to related nodes. -/
theorem resolveWithin (hR : FollowRelation anchors anchors' R) (steps : Nat) {m n : Node}
    (h : R m n) :
    Option.Rel R (m.resolveWithin anchors steps) (n.resolveWithin anchors' steps) := by
  induction steps generalizing m n with
  | zero =>
    rw [Node.resolveWithin, Node.resolveWithin]
    exact .none
  | succ steps ih =>
    -- Only documents and aliases lead on to another node.
    cases hR m n h with
    | scalar _ => exact .some h
    | sequence _ _ => exact .some h
    | mapping _ _ => exact .some h
    | @document content content' hcontent =>
      cases content with
      | nil =>
        cases content' with
        | nil => exact .none
        | cons _ _ => cases hcontent
      | cons node _ =>
        cases content' with
        | nil => cases hcontent
        | cons node' _ =>
          cases hcontent with
          | some hnode => exact ih hnode
    | @anchored a a' hanchor =>
      rw [Node.resolveWithin, Node.resolveWithin]
      generalize anchors[a]? = node at hanchor
      generalize anchors'[a']? = node' at hanchor
      cases hanchor with
      | none => exact .none
      | some hnode => exact ih hnode

theorem resolve? (hR : FollowRelation anchors anchors' R) {m n : Node} (h : R m n) :
    Option.Rel R (m.resolve? anchors) (n.resolve? anchors') :=
  hR.resolveWithin maxDepth h

theorem keyText (hR : FollowRelation anchors anchors' R) {m n : Node} (h : R m n) :
    m.keyText = n.keyText := by
  cases hR m n h with
  | scalar htext => exact htext
  | _ => rfl

theorem put (key : String) {m n : Node} (h : R m n) {es es' : List Entry}
    (hes : List.Forall₂ (EntryRel R) es es') :
    List.Forall₂ (EntryRel R) (Node.put key m es) (Node.put key n es') := by
  induction hes with
  | nil => exact .cons ⟨rfl, h⟩ .nil
  | cons he hes ih =>
    rw [Node.put, Node.put, he.1]
    split
    · exact .cons ⟨rfl, h⟩ hes
    · exact .cons he ih

theorem putPair (hR : FollowRelation anchors anchors' R) {p q : Node × Node}
    (hkey : R p.1 q.1) (hvalue : R p.2 q.2) {es es' : List Entry}
    (hes : List.Forall₂ (EntryRel R) es es') :
    List.Forall₂ (EntryRel R) (Node.putPair anchors es p) (Node.putPair anchors' es' q) := by
  unfold Node.putPair
  have hresolve := hR.resolve? hkey
  generalize p.1.resolve? anchors = k at hresolve
  generalize q.1.resolve? anchors' = k' at hresolve
  cases hresolve with
  | none => exact hes
  | some hk =>
    show List.Forall₂ _ (Node.put _ _ _) (Node.put _ _ _)
    rw [hR.keyText hk]
    exact put _ hvalue hes

theorem foldl_putPair (hR : FollowRelation anchors anchors' R) {ps qs : List (Node × Node)}
    (hpq : List.Forall₂ (fun p q => R p.1 q.1 ∧ R p.2 q.2) ps qs) {es es' : List Entry}
    (hes : List.Forall₂ (EntryRel R) es es') :
    List.Forall₂ (EntryRel R) (ps.foldl (Node.putPair anchors) es)
      (qs.foldl (Node.putPair anchors') es') := by
  induction hpq generalizing es es' with
  | nil => exact hes
  | cons hp _ ih => exact ih (hR.putPair hp.1 hp.2 hes)

/-- `find?` of a key takes related entries to related entries. -/
theorem find? {es es' : List Entry} (h : List.Forall₂ (EntryRel R) es es') (key : String) :
    Option.Rel (EntryRel R) (es.find? (·.key == key)) (es'.find? (·.key == key)) := by
  induction h with
  | nil => exact .none
  | cons he _ ih =>
    rw [List.find?_cons, List.find?_cons, he.1]
    split
    · exact .some he
    · exact ih

end FollowRelation

/-! ### Steps through related nodes -/

/-- Two nodes of one form whose children, or anchored nodes, are related. -/
inductive SameForm (anchors anchors' : Anchors) (R : Node → Node → Prop) : Node → Node → Prop
  | scalar (s : Scalar) : SameForm anchors anchors' R (.scalar s) (.scalar s)
  | sequence {items items' : List Node} (h : List.Forall₂ R items items') :
      SameForm anchors anchors' R (.sequence items) (.sequence items')
  | mapping {children children' : List Node} (h : List.Forall₂ R children children') :
      SameForm anchors anchors' R (.mapping children) (.mapping children')
  | document {content content' : List Node} (h : List.Forall₂ R content content') :
      SameForm anchors anchors' R (.document content) (.document content')
  | anchored {a a' : Nat} (h : Option.Rel R anchors[a]? anchors'[a']?) :
      SameForm anchors anchors' R (.alias a) (.alias a')

theorem rel_head?_of_forall₂ {R : Node → Node → Prop} {xs ys : List Node}
    (h : List.Forall₂ R xs ys) : Option.Rel R xs.head? ys.head? := by
  cases h with
  | nil => exact .none
  | cons hxy _ => exact .some hxy

namespace GraphRelation

variable {anchors anchors' : Anchors} {R : Node → Node → Prop}

/-- A `GraphRelation` relates nodes of the `SameForm`. -/
theorem sameForm (hR : GraphRelation anchors anchors' R) {m n : Node} (h : R m n) :
    SameForm anchors anchors' R m n := by
  cases m with
  | scalar s =>
    obtain rfl := hR.scalar h
    exact .scalar s
  | sequence items =>
    obtain ⟨items', rfl, hitems⟩ := hR.sequence h
    exact .sequence hitems
  | mapping children =>
    obtain ⟨children', rfl, hchildren⟩ := hR.mapping h
    exact .mapping hchildren
  | document content =>
    obtain ⟨content', rfl, hcontent⟩ := hR.document h
    exact .document hcontent
  | «alias» a =>
    obtain ⟨a', rfl, hanchor⟩ := hR.anchored h
    exact .anchored hanchor

theorem follow (hR : GraphRelation anchors anchors' R) : FollowRelation anchors anchors' R := by
  intro m n h
  cases hR.sameForm h with
  | scalar s => exact .scalar rfl
  | sequence _ => exact .sequence _ _
  | mapping _ => exact .mapping _ _
  | document hcontent => exact .document (rel_head?_of_forall₂ hcontent)
  | anchored hanchor => exact .anchored hanchor

theorem resolve? (hR : GraphRelation anchors anchors' R) {m n : Node} (h : R m n) :
    Option.Rel R (m.resolve? anchors) (n.resolve? anchors') :=
  hR.follow.resolve? h

theorem pairs {xs ys : List Node} (h : List.Forall₂ R xs ys) :
    List.Forall₂ (fun p q => R p.1 q.1 ∧ R p.2 q.2) (Node.pairs xs) (Node.pairs ys) := by
  induction xs using Node.pairs.induct generalizing ys with
  | case1 key value rest ih =>
    obtain ⟨key', ys', hkey, hys', rfl⟩ := List.forall₂_cons_left_iff.mp h
    obtain ⟨value', rest', hvalue, hrest, rfl⟩ := List.forall₂_cons_left_iff.mp hys'
    exact .cons ⟨hkey, hvalue⟩ (ih hrest)
  | case2 xs hxs =>
    cases h with
    | nil => exact .nil
    | cons _ h =>
      cases h with
      | nil => exact .nil
      | cons _ _ => exact absurd rfl (hxs _ _ _)

/-- **Related nodes have the same keys in the same order, with related nodes under them**: `entries`
takes `R` to `EntryRel R`. -/
theorem entries (hR : GraphRelation anchors anchors' R) {m n : Node} (h : R m n) :
    List.Forall₂ (EntryRel R) (m.entries anchors) (n.entries anchors') := by
  unfold Node.entries
  have hresolve := hR.resolve? h
  generalize m.resolve? anchors = m' at hresolve
  generalize n.resolve? anchors' = n' at hresolve
  cases hresolve with
  | none => exact .nil
  | @some m' n' hmn =>
    cases hR.sameForm hmn with
    | mapping hchildren => exact hR.follow.foldl_putPair (pairs hchildren) .nil
    | scalar _ => exact .nil
    | sequence _ => exact .nil
    | document _ => exact .nil
    | anchored _ => exact .nil

theorem lookup? (hR : GraphRelation anchors anchors' R) {m n : Node} (h : R m n) (key : String) :
    Option.Rel R (m.lookup? anchors key) (n.lookup? anchors' key) := by
  unfold Node.lookup?
  have hfind := FollowRelation.find? (hR.entries h) key
  generalize (m.entries anchors).find? (·.key == key) = e at hfind
  generalize (n.entries anchors').find? (·.key == key) = e' at hfind
  cases hfind with
  | none => exact .none
  | some he => exact hR.resolve? he.2

theorem mapM_eq_of_forall₂ {α β γ : Type} {S : α → β → Prop} {f : α → Except NodeError γ}
    {g : β → Except NodeError γ} {xs : List α} {ys : List β} (h : List.Forall₂ S xs ys)
    (hfg : ∀ {x y}, S x y → f x = g y) : xs.mapM f = ys.mapM g := by
  induction h with
  | nil => rfl
  | cons hxy _ ih => rw [List.mapM_cons, List.mapM_cons, hfg hxy, ih]

/-- **Related nodes have the same value**: `valueWithin` is equal for all `levels`. -/
theorem valueWithin_eq (hR : GraphRelation anchors anchors' R) (levels : Nat) {m n : Node}
    (h : R m n) : m.valueWithin anchors levels = n.valueWithin anchors' levels := by
  induction levels generalizing m n with
  | zero => rw [valueWithin, valueWithin]
  | succ levels ih =>
    rw [valueWithin, valueWithin]
    have hresolve := hR.resolve? h
    generalize m.resolve? anchors = m' at hresolve
    generalize n.resolve? anchors' = n' at hresolve
    cases hresolve with
    | none => rfl
    | @some m' n' hmn =>
      cases hR.sameForm hmn with
      | mapping _ =>
        refine congrArg (· >>= fun fields => pure (Value.map fields)) ?_
        refine mapM_eq_of_forall₂ (hR.entries hmn) fun he => ?_
        rw [he.1, ih he.2]
      | sequence hitems =>
        refine congrArg (· >>= fun values => pure (Value.list values)) ?_
        exact mapM_eq_of_forall₂ hitems ih
      | scalar _ => rfl
      | document _ => rfl
      | anchored _ => rfl

theorem value_eq (hR : GraphRelation anchors anchors' R) {m n : Node} (h : R m n) :
    m.value anchors = n.value anchors' :=
  hR.valueWithin_eq (maxDepth + 1) h

end GraphRelation

end SchemaPress.Node
