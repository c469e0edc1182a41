import Mathlib.Data.List.Nodup
import Mathlib.Data.List.Perm.Basic
import SchemaPress.Value.Exchange

/-!
# Values up to the order of fields

A map keeps its fields in the order of the document.  Two values are `Alike` if they are equal but
for that order, at every depth: as finite maps, they are the same.

JSON is written with sorted fields, so alike values have the same JSON form (`Alike.toJson?_eq`).
Sorting forgets the order because fields with different names can be sorted in one way only
(`sortFields_eq_of_perm`).
-/

namespace SchemaPress

/-! ### Sorting fields -/

section

variable {α : Type}

theorem perm_insertField (field : String × α) (fields : List (String × α)) :
    (insertField field fields).Perm (field :: fields) := by
  induction fields with
  | nil => exact .rfl
  | cons other rest ih =>
    rw [insertField]
    split
    · exact .rfl
    · exact (ih.cons other).trans (.swap _ _ _)

theorem perm_sortFields (fields : List (String × α)) : (sortFields fields).Perm fields := by
  induction fields with
  | nil => exact .rfl
  | cons field rest ih => exact (perm_insertField field _).trans (ih.cons field)

theorem pairwise_insertField (field : String × α) {fields : List (String × α)}
    (h : fields.Pairwise fun f g => f.1 ≤ g.1) :
    (insertField field fields).Pairwise fun f g => f.1 ≤ g.1 := by
  induction fields with
  | nil => exact List.pairwise_singleton _ _
  | cons other rest ih =>
    obtain ⟨hother, hrest⟩ := List.pairwise_cons.1 h
    rw [insertField]
    split
    · rename_i hle
      refine List.pairwise_cons.2 ⟨fun f hf => ?_, h⟩
      rcases List.mem_cons.1 hf with rfl | hf
      · exact hle
      · exact String.le_trans hle (hother f hf)
    · rename_i hle
      have hge : other.1 ≤ field.1 := (String.le_total field.1 other.1).resolve_left hle
      refine List.pairwise_cons.2 ⟨fun f hf => ?_, ih hrest⟩
      rcases List.mem_cons.1 ((perm_insertField field rest).mem_iff.1 hf) with rfl | hf
      · exact hge
      · exact hother f hf

theorem pairwise_sortFields (fields : List (String × α)) :
    (sortFields fields).Pairwise fun f g => f.1 ≤ g.1 := by
  induction fields with
  | nil => exact .nil
  | cons field rest ih => exact pairwise_insertField field ih

/-- If the names are distinct, a field is determined by its name. -/
theorem eq_of_mem_of_fst_eq {fields : List (String × α)} (hnodup : (fields.map (·.1)).Nodup)
    {f g : String × α} (hf : f ∈ fields) (hg : g ∈ fields) (h : f.1 = g.1) : f = g :=
  List.inj_on_of_nodup_map hnodup hf hg h

/-- **`sortFields` does not depend on the order of fields with distinct names.** -/
theorem sortFields_eq_of_perm {fields fields' : List (String × α)} (h : fields.Perm fields')
    (hnodup : (fields.map (·.1)).Nodup) : sortFields fields = sortFields fields' := by
  have hperm : (sortFields fields).Perm (sortFields fields') :=
    (perm_sortFields fields).trans (h.trans (perm_sortFields fields').symm)
  refine hperm.eq_of_pairwise ?_ (pairwise_sortFields fields) (pairwise_sortFields fields')
  intro f g hf hg hfg hgf
  have hf' : f ∈ fields := (perm_sortFields fields).mem_iff.1 hf
  have hg' : g ∈ fields := h.mem_iff.2 ((perm_sortFields fields').mem_iff.1 hg)
  exact eq_of_mem_of_fst_eq hnodup hf' hg' (String.le_antisymm hfg hgf)

end

namespace Value

/-! ### Alike values -/

/-- The values are equal up to the order of fields. -/
inductive Alike : Value → Value → Prop
  | refl (v : Value) : Alike v v
  | list {items items' : List Value} (length_eq : items.length = items'.length)
      (alike : ∀ (i : Nat) v v', items[i]? = some v → items'[i]? = some v' → Alike v v') :
      Alike (.list items) (.list items')
  | map {fields fields' : List (String × Value)} (nodup : (fields.map (·.1)).Nodup)
      (nodup' : (fields'.map (·.1)).Nodup)
      (names : ∀ name, name ∈ fields.map (·.1) ↔ name ∈ fields'.map (·.1))
      (alike : ∀ name v v', (name, v) ∈ fields → (name, v') ∈ fields' → Alike v v') :
      Alike (.map fields) (.map fields')

theorem isSome_field?_map {fields : List (String × Value)} {name : String} :
    ((Value.map fields).field? name).isSome = true ↔ name ∈ fields.map (·.1) := by
  rw [field?, Option.isSome_map, List.find?_isSome, List.mem_map]
  simp only [beq_iff_eq]

/-- `Alike` values have the same field names. -/
theorem Alike.isSome_field? {v v' : Value} (h : Alike v v') (name : String) :
    (v.field? name).isSome = (v'.field? name).isSome := by
  cases h with
  | refl => rfl
  | list => rfl
  | map _ _ names _ =>
    rw [Bool.eq_iff_iff, isSome_field?_map, isSome_field?_map]
    exact names name

/-! ### JSON forms -/

theorem toItems?_congr {items items' : List Value} (hlength : items.length = items'.length)
    (h : ∀ (i : Nat) (v v' : Value), items[i]? = some v → items'[i]? = some v' →
      v.toJson? = v'.toJson?) :
    toItems? items = toItems? items' := by
  induction items generalizing items' with
  | nil => rw [List.length_eq_zero_iff.1 hlength.symm]
  | cons v rest ih =>
    cases items' with
    | nil => cases hlength
    | cons v' rest' =>
      have hhead : v.toJson? = v'.toJson? := h 0 v v' rfl rfl
      have htail : toItems? rest = toItems? rest' :=
        ih (Nat.succ.inj hlength) fun i w w' hw hw' => h (i + 1) w w' hw hw'
      rw [toItems?, toItems?, hhead, htail]

theorem toFields?_cons_eq_some {name : String} {v : Value} {rest : List (String × Value)}
    {forms : List (String × Json)} :
    toFields? ((name, v) :: rest) = some forms ↔
      ∃ form more, v.toJson? = some form ∧ toFields? rest = some more ∧
        forms = (name, form) :: more := by
  rw [toFields?]
  cases v.toJson? with
  | none => simp
  | some form => cases toFields? rest <;> simp [eq_comm]

theorem map_fst_toFields? {fields : List (String × Value)} {forms : List (String × Json)}
    (h : toFields? fields = some forms) : forms.map (·.1) = fields.map (·.1) := by
  induction fields generalizing forms with
  | nil =>
    cases h
    rfl
  | cons field rest ih =>
    obtain ⟨form, more, -, hmore, rfl⟩ := toFields?_cons_eq_some.1 h
    rw [List.map_cons, List.map_cons, ih hmore]

/-- The members of `toFields? fields` are the JSON forms of `fields`, under their names. -/
theorem mem_toFields? {fields : List (String × Value)} {forms : List (String × Json)}
    (h : toFields? fields = some forms) {name : String} {form : Json} :
    (name, form) ∈ forms ↔ ∃ v, (name, v) ∈ fields ∧ v.toJson? = some form := by
  induction fields generalizing forms with
  | nil =>
    cases h
    simp
  | cons field rest ih =>
    obtain ⟨first, more, hfirst, hmore, rfl⟩ := toFields?_cons_eq_some.1 h
    rw [List.mem_cons, ih hmore]
    constructor
    · rintro (heq | ⟨v, hv, hform⟩)
      · cases heq
        exact ⟨field.2, List.mem_cons_self, hfirst⟩
      · exact ⟨v, List.mem_cons_of_mem _ hv, hform⟩
    · rintro ⟨v, hv, hform⟩
      rcases List.mem_cons.1 hv with heq | hv
      · left
        cases heq
        rw [Option.some.inj (hfirst.symm.trans hform)]
      · exact .inr ⟨v, hv, hform⟩

theorem exists_toFields? {fields : List (String × Value)}
    (h : ∀ name v, (name, v) ∈ fields → ∃ form, v.toJson? = some form) :
    ∃ forms, toFields? fields = some forms := by
  induction fields with
  | nil => exact ⟨[], rfl⟩
  | cons field rest ih =>
    obtain ⟨form, hform⟩ := h field.1 field.2 List.mem_cons_self
    obtain ⟨more, hmore⟩ := ih fun name v hv => h name v (List.mem_cons_of_mem _ hv)
    exact ⟨_, toFields?_cons_eq_some.2 ⟨form, more, hform, hmore, rfl⟩⟩

/-- Fields with the same distinct names, and the same JSON forms under each, have the same
`sortFields` of their forms. -/
theorem sortFields_toFields?_of_eq_some {fields fields' : List (String × Value)}
    {forms : List (String × Json)} (h : toFields? fields = some forms)
    (nodup : (fields.map (·.1)).Nodup) (nodup' : (fields'.map (·.1)).Nodup)
    (names : ∀ name, name ∈ fields.map (·.1) ↔ name ∈ fields'.map (·.1))
    (hforms : ∀ name v v', (name, v) ∈ fields → (name, v') ∈ fields' → v.toJson? = v'.toJson?) :
    ∃ forms', toFields? fields' = some forms' ∧ sortFields forms = sortFields forms' := by
  -- Every field of the one map has a partner in the other.
  have hpartner : ∀ name v', (name, v') ∈ fields' → ∃ v, (name, v) ∈ fields := by
    intro name v' hv'
    obtain ⟨⟨_, v⟩, hv, rfl⟩ :=
      List.mem_map.1 ((names name).2 (List.mem_map.2 ⟨(name, v'), hv', rfl⟩))
    exact ⟨v, hv⟩
  have hpartner' : ∀ name v, (name, v) ∈ fields → ∃ v', (name, v') ∈ fields' := by
    intro name v hv
    obtain ⟨⟨_, v'⟩, hv', rfl⟩ :=
      List.mem_map.1 ((names name).1 (List.mem_map.2 ⟨(name, v), hv, rfl⟩))
    exact ⟨v', hv'⟩
  obtain ⟨forms', h'⟩ : ∃ forms', toFields? fields' = some forms' := by
    refine exists_toFields? fun name v' hv' => ?_
    obtain ⟨v, hv⟩ := hpartner name v' hv'
    have hmem : name ∈ forms.map (·.1) := by
      rw [map_fst_toFields? h]
      exact List.mem_map.2 ⟨(name, v), hv, rfl⟩
    obtain ⟨⟨_, form⟩, hform, rfl⟩ := List.mem_map.1 hmem
    obtain ⟨w, hw, hform⟩ := (mem_toFields? h).1 hform
    exact ⟨form, (hforms _ w v' hw hv').symm.trans hform⟩
  refine ⟨forms', h', sortFields_eq_of_perm ?_ (by rwa [map_fst_toFields? h])⟩
  have hnodup : forms.Nodup := .of_map (·.1) (by rwa [map_fst_toFields? h])
  have hnodup' : forms'.Nodup := .of_map (·.1) (by rwa [map_fst_toFields? h'])
  rw [List.perm_ext_iff_of_nodup hnodup hnodup']
  rintro ⟨name, form⟩
  rw [mem_toFields? h, mem_toFields? h']
  constructor
  · rintro ⟨v, hv, hform⟩
    obtain ⟨v', hv'⟩ := hpartner' name v hv
    exact ⟨v', hv', (hforms name v v' hv hv').symm.trans hform⟩
  · rintro ⟨v', hv', hform⟩
    obtain ⟨v, hv⟩ := hpartner name v' hv'
    exact ⟨v, hv, (hforms name v v' hv hv').trans hform⟩

/-- **`Alike` values have the same JSON form.** -/
theorem Alike.toJson?_eq {v v' : Value} (h : Alike v v') : v.toJson? = v'.toJson? := by
  induction h with
  | refl => rfl
  | list length_eq _ ih => rw [toJson?, toJson?, toItems?_congr length_eq ih]
  | @map fields fields' nodup nodup' names _ ih =>
    rw [toJson?, toJson?]
    cases hforms : toFields? fields with
    | some forms =>
      obtain ⟨forms', hforms', hsort⟩ :=
        sortFields_toFields?_of_eq_some hforms nodup nodup' names ih
      rw [hforms', Option.map_some, Option.map_some, hsort]
    | none =>
      cases hforms' : toFields? fields' with
      | none => rfl
      | some forms' =>
        obtain ⟨forms, hsome, -⟩ := sortFields_toFields?_of_eq_some hforms' nodup' nodup
          (fun name => (names name).symm) fun name v v' hv hv' => (ih name v' v hv' hv).symm
        rw [hforms] at hsome
        cases hsome

end Value

end SchemaPress
