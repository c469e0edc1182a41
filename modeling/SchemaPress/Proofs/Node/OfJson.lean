import SchemaPress.Node.Denotation
import SchemaPress.Proofs.Node.Numeral
import SchemaPress.Proofs.Node.Order

/-!
# JSON values as documents

What a JSON value means is said without its tree (`Json.Denotes`): an object is a finite map in
which the last occurrence of a name counts, at every level, a text is itself, and a number is an
integer or a float.

The tree of a value is there as long as the value is not nested too deep
(`isSome_ofJsonWithin_iff`).  The tree denotes what the value does, unless one of its numbers
denotes nothing (`outcome_ofJsonWithin`).  It is never too deep to denote something, since the tree
is followed to the depth to which it is built.
-/

namespace SchemaPress

namespace Json

/-- `literal` is a number in the value, at any level and under any field. -/
inductive HasNumber (literal : String) : Json → Prop
  | here : HasNumber literal (.number literal)
  | item {items : List Json} {v : Json} (hv : v ∈ items) (h : HasNumber literal v) :
      HasNumber literal (.array items)
  | field {fields : List (String × Json)} {f : String × Json} (hf : f ∈ fields)
      (h : HasNumber literal f.2) : HasNumber literal (.object fields)

/-- `Denotes v value`: the JSON value `v` means `value`.  Of fields with the same name the last one
counts, and their order does not matter. -/
inductive Denotes : Json → Value → Prop
  | null : Denotes .null .null
  | bool (b : Bool) : Denotes (.bool b) (.bool b)
  | integer {literal : String} {n : Int} (h : IsInteger literal n) (hfits : Fits n) :
      Denotes (.number literal) (.int n)
  | float {literal : String} (h : ∀ n, IsInteger literal n → ¬ Fits n) :
      Denotes (.number literal) (.float (float literal))
  | string (s : String) : Denotes (.string s) (.text s)
  | array {items : List Json} {values : List Value} (h : List.Forall₂ Denotes items values) :
      Denotes (.array items) (.list values)
  | object {fields : List (String × Json)} {entries : List (String × Value)}
      (hnodup : (entries.map (·.1)).Nodup)
      (hnames : ∀ name, name ∈ entries.map (·.1) ↔ name ∈ fields.map (·.1))
      (h : ∀ name v value, field? name (.object fields) = some v → (name, value) ∈ entries →
        Denotes v value) :
      Denotes (.object fields) (.map entries)

/-- The scalar of `literal` has a value. -/
def Decodes (literal : String) : Prop :=
  (Scalar.value? ⟨Node.numberTag literal, literal, 0⟩).isSome = true

/-- All numbers of `v` satisfy `Decodes`. -/
def NumbersDecode (v : Json) : Prop :=
  ∀ literal, v.HasNumber literal → Decodes literal

/-- All numbers of `v` satisfy `IsNumeral`. -/
def NumbersSpelled (v : Json) : Prop :=
  ∀ literal, v.HasNumber literal → IsNumeral literal.toList

/-- All numbers of the phrase satisfy `IsNumeral`. -/
def Phrase.NumbersSpelled : Phrase → Prop
  | .value v => v.NumbersSpelled
  | .items vs => ∀ v ∈ vs, v.NumbersSpelled
  | .fields fs => ∀ f ∈ fs, f.2.NumbersSpelled

theorem Spells.numbersSpelled {p : Phrase} {cs : List Char} (h : Spells p cs) :
    p.NumbersSpelled := by
  induction h with
  | null | yes | no | string _ | emptyArray _ | emptyObject _ =>
    intro literal hnumber
    cases hnumber <;> contradiction
  | number h =>
    intro literal hnumber
    cases hnumber
    rwa [String.toList_ofList]
  | array _ ih =>
    intro literal hnumber
    cases hnumber with
    | item hv hnumber => exact ih _ hv literal hnumber
  | object _ ih =>
    intro literal hnumber
    cases hnumber with
    | field hf hnumber => exact ih _ hf literal hnumber
  | lastItem _ _ _ ih => exact List.forall_mem_singleton.2 ih
  | item _ _ _ _ ih ihmore => exact List.forall_mem_cons.2 ⟨ih, ihmore⟩
  | lastField _ _ _ _ _ _ ih => exact List.forall_mem_singleton.2 ih
  | field _ _ _ _ _ _ _ ih ihmore => exact List.forall_mem_cons.2 ⟨ih, ihmore⟩

/-! ### Depth -/

theorem depthItems_le_iff {items : List Json} {levels : Nat} :
    depthItems items ≤ levels ↔ ∀ v ∈ items, v.depth ≤ levels := by
  induction items with
  | nil => simp [depthItems]
  | cons v rest ih => rw [depthItems, Nat.max_le, ih, List.forall_mem_cons]

theorem depthFields_le_iff {fields : List (String × Json)} {levels : Nat} :
    depthFields fields ≤ levels ↔ ∀ f ∈ fields, f.2.depth ≤ levels := by
  induction fields with
  | nil => simp [depthFields]
  | cons f rest ih => rw [depthFields, Nat.max_le, ih, List.forall_mem_cons]

/-! ### Fields -/

theorem mem_of_field?_eq_some {fields : List (String × Json)} {name : String} {v : Json}
    (h : field? name (.object fields) = some v) : (name, v) ∈ fields := by
  obtain ⟨f, hf, rfl⟩ := Option.map_eq_some_iff.1 h
  have hname : f.1 = name := by simpa using List.find?_some hf
  have hmem := List.mem_reverse.1 (List.mem_of_find?_eq_some hf)
  rwa [← hname]

theorem isSome_field?_iff {fields : List (String × Json)} {name : String} :
    (field? name (.object fields)).isSome = true ↔ name ∈ fields.map (·.1) := by
  rw [field?, Option.isSome_map, List.find?_isSome, List.mem_map]
  simp

end Json

namespace Node

variable {levels : Nat} {items : List Json} {fields : List (String × Json)} {v : Json} {node : Node}

/-! ### The tree of a value -/

theorem isSome_ofItems : (ofItems (levels + 1) items).isSome = true ↔
    ∀ v ∈ items, (ofJsonWithin levels v).isSome = true := by
  induction items with
  | nil => simp [ofItems]
  | cons v rest ih =>
    rw [ofItems, List.forall_mem_cons, ← ih]
    cases ofJsonWithin levels v <;> cases ofItems (levels + 1) rest <;> simp

theorem isSome_ofFields : (ofFields (levels + 1) fields).isSome = true ↔
    ∀ f ∈ fields, (ofJsonWithin levels f.2).isSome = true := by
  induction fields with
  | nil => simp [ofFields]
  | cons f rest ih =>
    rw [ofFields, List.forall_mem_cons, ← ih]
    cases ofJsonWithin levels f.2 <;> cases ofFields (levels + 1) rest <;> simp

/-- **`ofJsonWithin levels v` is defined exactly if `v.depth ≤ levels`.** -/
theorem isSome_ofJsonWithin_iff : (ofJsonWithin levels v).isSome = true ↔ v.depth ≤ levels := by
  induction levels generalizing v with
  | zero =>
    rcases v with _ | _ | _ | _ | ⟨_ | ⟨v, rest⟩⟩ | ⟨_ | ⟨f, rest⟩⟩ <;>
      simp [ofJsonWithin, ofItems, ofFields, Json.depth]
  | succ levels ih =>
    rcases v with _ | _ | _ | _ | ⟨_ | ⟨v, rest⟩⟩ | ⟨_ | ⟨f, rest⟩⟩
    case array.cons =>
      rw [ofJsonWithin, Option.isSome_map, isSome_ofItems, Json.depth, Nat.add_le_add_iff_right,
        Json.depthItems_le_iff]
      · simp only [ih]
      · exact List.cons_ne_nil v rest
    case object.cons =>
      rw [ofJsonWithin, Option.isSome_map, isSome_ofFields, Json.depth, Nat.add_le_add_iff_right,
        Json.depthFields_le_iff]
      · simp only [ih]
      · exact List.cons_ne_nil f rest
    all_goals simp [ofJsonWithin, ofItems, ofFields, Json.depth]

/-- `node` is the tree of `v` with one level less, if there is such a level. -/
def OneFurther (levels : Nat) (v : Json) (node : Node) : Prop :=
  ∃ further, levels = further + 1 ∧ ofJsonWithin further v = some node

theorem forall₂_of_ofItems {nodes : List Node} (h : ofItems levels items = some nodes) :
    List.Forall₂ (OneFurther levels) items nodes := by
  induction items generalizing nodes with
  | nil =>
    obtain rfl : [] = nodes := by simpa [ofItems] using h
    exact .nil
  | cons v rest ih =>
    cases levels with
    | zero => cases h
    | succ further =>
      rw [ofItems] at h
      simp only [bind, Option.bind_eq_some_iff, pure, Option.some.injEq] at h
      obtain ⟨node, hnode, more, hmore, rfl⟩ := h
      exact .cons ⟨further, rfl, hnode⟩ (ih hmore)

theorem forall₂_of_ofFields {children : List Node} (h : ofFields levels fields = some children) :
    List.Forall₂ (fun f p => p.1 = ofText f.1 ∧ OneFurther levels f.2 p.2) fields
      (pairs children) := by
  induction fields generalizing children with
  | nil =>
    obtain rfl : [] = children := by simpa [ofFields] using h
    exact .nil
  | cons f rest ih =>
    cases levels with
    | zero => cases h
    | succ further =>
      rw [ofFields] at h
      simp only [bind, Option.bind_eq_some_iff, pure, Option.some.injEq] at h
      obtain ⟨node, hnode, more, hmore, rfl⟩ := h
      rw [pairs]
      exact .cons ⟨rfl, further, rfl, hnode⟩ (ih hmore)

/-! ### The entries of an object -/

theorem find?_put (key name : String) (node : Node) (es : List Entry) :
    (put name node es).find? (·.key == key) =
      if name == key then some ⟨name, node⟩ else es.find? (·.key == key) := by
  induction es with
  | nil => cases h : name == key <;> simp [put, h]
  | cons e rest ih =>
    rw [put]
    by_cases he : e.key = name
    · rw [if_pos (beq_iff_eq.2 he), List.find?_cons, List.find?_cons, he]
      cases name == key <;> rfl
    · rw [if_neg (by simpa using he), List.find?_cons, List.find?_cons, ih]
      cases hkey : e.key == key with
      | false => rfl
      | true =>
        have hname : (name == key) = false := by
          rw [← beq_iff_eq.1 hkey]
          simpa using Ne.symm he
        rw [hname]
        rfl

/-- `putPair` over the pairs of an object: the entry with a key is that of the last field with that
name. -/
theorem rel_find?_foldl_putPair {S : Json → Node → Prop} {ps : List (Node × Node)}
    (h : List.Forall₂ (fun f p => p.1 = ofText f.1 ∧ S f.2 p.2) fields ps) (key : String)
    {es : List Entry} {old : Option Json}
    (hold : Option.Rel (fun v e => S v e.node) old (es.find? (·.key == key))) :
    Option.Rel (fun v e => S v e.node) (((fields.reverse.find? (·.1 == key)).map (·.2)).or old)
      ((ps.foldl (putPair #[]) es).find? (·.key == key)) := by
  induction h generalizing es old with
  | nil => exact hold
  | @cons f p fields ps hfp _ ih =>
    have hput : putPair #[] es p = put f.1 p.2 es := by
      rw [putPair, hfp.1]
      rfl
    have hlast : (((f :: fields).reverse.find? (·.1 == key)).map (·.2)).or old =
        ((fields.reverse.find? (·.1 == key)).map (·.2)).or
          (if f.1 == key then some f.2 else old) := by
      rw [List.reverse_cons, List.find?_append]
      cases hkey : f.1 == key <;> cases fields.reverse.find? (·.1 == key) <;> simp [hkey]
    rw [List.foldl_cons, hput, hlast]
    refine ih ?_
    rw [find?_put]
    cases f.1 == key with
    | true => exact .some hfp.2
    | false => exact hold

section Entries

variable (S : Json → Node → Prop) {children : List Node}
  (h : List.Forall₂ (fun f p => p.1 = ofText f.1 ∧ S f.2 p.2) fields (pairs children))
include h

theorem rel_find?_entries (key : String) :
    Option.Rel (fun v e => S v e.node) (Json.field? key (.object fields))
      ((entries #[] (.mapping children)).find? (·.key == key)) := by
  have hnone : Option.Rel (fun v e => S v e.node) none (([] : List Entry).find? (·.key == key)) :=
    .none
  have hrel := rel_find?_foldl_putPair h key hnone
  rwa [Option.or_none] at hrel

/-- The entry with a key belongs to the last field with that name. -/
theorem exists_field?_of_mem_entries {e : Entry} (he : e ∈ entries #[] (.mapping children)) :
    ∃ v, Json.field? e.key (.object fields) = some v ∧ S v e.node := by
  have hrel := rel_find?_entries S h e.key
  rw [(find?_eq_some_iff (nodup_map_key_entries #[] _)).2 ⟨he, rfl⟩] at hrel
  generalize Json.field? e.key (.object fields) = found at hrel
  cases hrel with
  | some hv => exact ⟨_, rfl, hv⟩

theorem mem_map_key_entries_iff (name : String) :
    name ∈ (entries #[] (.mapping children)).map (·.key) ↔ name ∈ fields.map (·.1) := by
  have hfind : ((entries #[] (.mapping children)).find? (·.key == name)).isSome = true ↔
      name ∈ (entries #[] (.mapping children)).map (·.key) := by
    rw [List.find?_isSome, List.mem_map]
    simp
  rw [← hfind, ← Json.isSome_field?_iff]
  have hrel := rel_find?_entries S h name
  generalize Json.field? name (.object fields) = old at hrel
  generalize (entries #[] (.mapping children)).find? (·.key == name) = found at hrel
  cases hrel <;> simp

end Entries

/-! ### What the tree denotes -/

/-- The value of the tree of `v`: one that `v` denotes, or `.badScalar` because a number has no
value. -/
inductive Outcome (v : Json) : Except NodeError Value → Prop
  | ok {value : Value} (h : v.Denotes value) : Outcome v (.ok value)
  | error {literal : String} (h : v.HasNumber literal) (hbad : ¬ Json.Decodes literal) :
      Outcome v (.error (.badScalar 0))

theorem exists_of_mapM_eq_error {ε α β : Type} {g : α → Except ε β} {xs : List α} {e : ε}
    (h : xs.mapM g = .error e) : ∃ x ∈ xs, g x = .error e := by
  induction xs with
  | nil => cases h
  | cons x rest ih =>
    rw [List.mapM_cons] at h
    cases hx : g x with
    | error e' =>
      rw [hx] at h
      cases h
      exact ⟨x, List.mem_cons_self, hx⟩
    | ok y =>
      rw [hx] at h
      cases hmore : rest.mapM g with
      | error e' =>
        rw [hmore] at h
        cases h
        obtain ⟨x', hx', herror⟩ := ih hmore
        exact ⟨x', List.mem_cons_of_mem _ hx', herror⟩
      | ok ys =>
        rw [hmore] at h
        cases h

theorem Outcome.denotes {value : Value} (h : Outcome v (.ok value)) : v.Denotes value := by
  cases h with
  | ok h => exact h

theorem Outcome.exists_number {e : NodeError} (h : Outcome v (.error e)) :
    ∃ literal, v.HasNumber literal ∧ ¬ Json.Decodes literal ∧ e = .badScalar 0 := by
  cases h with
  | error h hbad => exact ⟨_, h, hbad, rfl⟩

theorem outcome_sequence {nodes : List Node}
    (h : List.Forall₂ (fun v node => Outcome v (valueWithin #[] levels node)) items nodes) :
    Outcome (.array items) (valueWithin #[] (levels + 1) (.sequence nodes)) := by
  have hvalue : valueWithin #[] (levels + 1) (.sequence nodes) =
      (do return .list (← nodes.mapM (valueWithin #[] levels))) := rfl
  rw [hvalue]
  cases hmap : nodes.mapM (valueWithin #[] levels) with
  | ok values =>
    refine .ok (.array ?_)
    have hvalues := mapM_eq_ok_iff.1 hmap
    clear hmap hvalue
    induction h generalizing values with
    | nil =>
      cases hvalues
      exact .nil
    | cons hv _ ih =>
      obtain ⟨value, more, hvalue, hmore, rfl⟩ := List.forall₂_cons_left_iff.1 hvalues
      rw [hvalue] at hv
      exact .cons hv.denotes (ih more hmore)
  | error e =>
    obtain ⟨node, hnode, herror⟩ := exists_of_mapM_eq_error hmap
    obtain ⟨v, hv, houtcome⟩ := exists_of_forall₂ h.flip hnode
    rw [herror] at houtcome
    obtain ⟨literal, hnumber, hbad, rfl⟩ := houtcome.exists_number
    exact .error (.item hv hnumber) hbad

theorem outcome_mapping {children : List Node}
    (h : List.Forall₂ (fun f p => p.1 = ofText f.1 ∧ Outcome f.2 (valueWithin #[] levels p.2))
      fields (pairs children)) :
    Outcome (.object fields) (valueWithin #[] (levels + 1) (.mapping children)) := by
  have hentry : ∀ {e}, e ∈ entries #[] (.mapping children) →
      ∃ v, Json.field? e.key (.object fields) = some v ∧
        Outcome v (valueWithin #[] levels e.node) :=
    exists_field?_of_mem_entries (fun v node => Outcome v (valueWithin #[] levels node)) h
  have hvalue : valueWithin #[] (levels + 1) (.mapping children) = (do
      let fields ← (entries #[] (.mapping children)).mapM fun e => do
        return (e.key, ← valueWithin #[] levels e.node)
      return .map fields) := rfl
  rw [hvalue]
  cases hmap : (entries #[] (.mapping children)).mapM fun e => do
      return (e.key, ← valueWithin #[] levels e.node) with
  | ok entries =>
    have hnames := map_fst_of_mapM hmap
    refine .ok (.object (hnames ▸ nodup_map_key_entries #[] _) (fun name => ?_)
      fun name v value hv hmem => ?_)
    · rw [hnames]
      exact mem_map_key_entries_iff (fun v node => Outcome v (valueWithin #[] levels node)) h name
    · obtain ⟨e, he, rfl, hvalue⟩ := exists_of_forall₂ (fields_of_mapM hmap).flip hmem
      obtain ⟨v', hv', houtcome⟩ := hentry he
      obtain rfl : v' = v := Option.some.inj (hv'.symm.trans hv)
      rw [hvalue] at houtcome
      exact houtcome.denotes
  | error err =>
    obtain ⟨e, he, herror⟩ := exists_of_mapM_eq_error hmap
    obtain ⟨v, hv, houtcome⟩ := hentry he
    cases hvalue : valueWithin #[] levels e.node with
    | ok value =>
      rw [hvalue] at herror
      cases herror
    | error err' =>
      rw [hvalue] at herror houtcome
      cases herror
      obtain ⟨literal, hnumber, hbad, rfl⟩ := houtcome.exists_number
      exact .error (.field (Json.mem_of_field?_eq_some hv) hnumber) hbad

theorem valueWithin_scalar (s : Scalar) : valueWithin #[] (levels + 1) (.scalar s) =
    s.value?.elim (.error (.badScalar s.line)) .ok := by
  have hresolve : resolve? #[] (.scalar s) = some (.scalar s) := rfl
  rw [valueWithin, hresolve]
  dsimp only
  cases s.value? <;> rfl

theorem outcome_scalar {s : Scalar} {value : Value} (hs : s.value? = some value)
    (h : v.Denotes value) : Outcome v (valueWithin #[] (levels + 1) (.scalar s)) := by
  rw [valueWithin_scalar, hs]
  exact .ok h

theorem outcome_number {literal : String} (h : Json.IsNumeral literal.toList) :
    Outcome (.number literal)
      (valueWithin #[] (levels + 1) (.scalar ⟨numberTag literal, literal, 0⟩)) := by
  cases hvalue : Scalar.value? ⟨numberTag literal, literal, 0⟩ with
  | some value =>
    refine outcome_scalar hvalue ?_
    rcases Json.value?_number h hvalue with ⟨n, hn, hfits, rfl⟩ | ⟨hfloat, rfl⟩
    · exact .integer hn hfits
    · exact .float hfloat
  | none =>
    rw [valueWithin_scalar, hvalue]
    refine .error .here ?_
    rw [Json.Decodes, hvalue]
    exact Bool.false_ne_true

/-- **The tree of `v` denotes what `v` denotes**, unless a number of it has no value. -/
theorem outcome_ofJsonWithin (hspelled : v.NumbersSpelled) (h : ofJsonWithin levels v = some node) :
    Outcome v (valueWithin #[] (levels + 1) node) := by
  induction levels using Nat.strong_induction_on generalizing v node with
  | _ levels ih =>
    -- what lies one level further in has one level less to go
    have hfurther : ∀ {v node}, v.NumbersSpelled → OneFurther levels v node →
        Outcome v (valueWithin #[] levels node) := by
      rintro v node hspelled ⟨further, rfl, hnode⟩
      exact ih further (Nat.lt_succ_self further) hspelled hnode
    cases v with
    | null =>
      cases h
      exact outcome_scalar rfl .null
    | bool b =>
      cases h
      exact outcome_scalar (by cases b <;> rfl) (.bool b)
    | number literal =>
      cases h
      exact outcome_number (hspelled literal .here)
    | string s =>
      cases h
      exact outcome_scalar rfl (.string s)
    | array items =>
      rw [ofJsonWithin] at h
      obtain ⟨nodes, hnodes, rfl⟩ := Option.map_eq_some_iff.1 h
      have hitems : ∀ v ∈ items, v.NumbersSpelled :=
        fun v hv literal hnumber => hspelled literal (.item hv hnumber)
      exact outcome_sequence <|
        ((List.forall₂_and_left _ _).2 ⟨hitems, forall₂_of_ofItems hnodes⟩).imp
          fun _ _ hv => hfurther hv.1 hv.2
    | object fields =>
      rw [ofJsonWithin] at h
      obtain ⟨children, hchildren, rfl⟩ := Option.map_eq_some_iff.1 h
      have hfields : ∀ f ∈ fields, f.2.NumbersSpelled :=
        fun f hf literal hnumber => hspelled literal (.field hf hnumber)
      exact outcome_mapping <|
        ((List.forall₂_and_left _ _).2 ⟨hfields, forall₂_of_ofFields hchildren⟩).imp
          fun _ _ hf => ⟨hf.2.1, hfurther hf.1 hf.2.2⟩

end Node

end SchemaPress
