import Mathlib.Data.List.Nodup
import SchemaPress.Config.Decode

/-!
# Settings that are laid over others

`set` puts one field in place of those with its name and leaves the others as they are
(`mem_set_iff`, `lookup_set_of_ne`), also for a search in any case (`find_set_of_ne`).  So where
settings with distinct names are laid over others, each of their values is found afterwards, as
`mergeValue` lays it over the value of before (`lookup_merge`).
-/

namespace SchemaPress.Settings

variable {α : Type} {fields below above : Settings} {name key : String} {value v : Value}

/-! ### One field -/

theorem mem_set_iff {fields : List (String × α)} {value : α} {f : String × α} :
    f ∈ set fields name value ↔ f = (name, value) ∨ (f ∈ fields ∧ f.1 ≠ name) := by
  unfold set
  split
  · rename_i hany
    obtain ⟨old, hold, hname⟩ := List.any_eq_true.1 hany
    rw [List.mem_map]
    constructor
    · rintro ⟨g, hg, rfl⟩
      by_cases hsame : (g.1 == name) = true
      · exact .inl (if_pos hsame)
      · rw [if_neg hsame]
        exact .inr ⟨hg, fun heq => hsame (beq_iff_eq.2 heq)⟩
    · rintro (rfl | ⟨hf, hne⟩)
      · exact ⟨old, hold, if_pos hname⟩
      · exact ⟨f, hf, if_neg fun hsame => hne (beq_iff_eq.1 hsame)⟩
  · rename_i hnone
    rw [List.mem_append, List.mem_singleton]
    constructor
    · rintro (hf | rfl)
      · exact .inr ⟨hf, fun heq => hnone (List.any_eq_true.2 ⟨f, hf, beq_iff_eq.2 heq⟩)⟩
      · exact .inl rfl
    · rintro (rfl | ⟨hf, -⟩)
      · exact .inr rfl
      · exact .inl hf

/-- `lookup` finds a value that is the only one under `key`. -/
theorem lookup_eq_some_of_unique {fields : List (String × α)} {v : α} (hmem : (key, v) ∈ fields)
    (hunique : ∀ w, (key, w) ∈ fields → w = v) : fields.lookup key = some v := by
  cases hlookup : fields.lookup key with
  | none => exact absurd rfl (bne_iff_ne.1 (List.lookup_eq_none_iff.1 hlookup _ hmem))
  | some w =>
    obtain ⟨before, after, rfl, -⟩ := List.lookup_eq_some_iff.1 hlookup
    rw [hunique w (by simp)]

theorem lookup_set_self {fields : List (String × α)} {value : α} :
    (set fields name value).lookup name = some value := by
  apply lookup_eq_some_of_unique
  · exact mem_set_iff.2 (.inl rfl)
  · intro w hw
    rcases mem_set_iff.1 hw with hsame | ⟨-, hne⟩
    · exact (Prod.mk.inj hsame).2
    · exact absurd rfl hne

theorem lookup_set_of_ne {fields : List (String × α)} {value : α} (h : key ≠ name) :
    (set fields name value).lookup key = fields.lookup key := by
  have hkey : (key == name) = false := beq_false_of_ne h
  have hmap : ∀ fs : List (String × α),
      (fs.map fun f => if f.1 == name then (name, value) else f).lookup key = fs.lookup key := by
    intro fs
    induction fs with
    | nil => rfl
    | cons f rest ih =>
      rw [List.map_cons]
      by_cases hsame : (f.1 == name) = true
      · have hf : (key == f.1) = false := beq_iff_eq.1 hsame ▸ hkey
        rw [if_pos hsame, List.lookup_cons, List.lookup_cons, hkey, hf, ih]
      · rw [if_neg hsame, List.lookup_cons, List.lookup_cons, ih]
  unfold set
  split
  · exact hmap fields
  · rw [List.lookup_append, List.lookup_cons, hkey]
    exact Option.or_none

/-- If the names are distinct, `lookup` finds `v` under `key` exactly if `(key, v)` is a field. -/
theorem lookup_eq_some_iff {fields : List (String × α)} {v : α} (h : (fields.map (·.1)).Nodup) :
    fields.lookup key = some v ↔ (key, v) ∈ fields := by
  constructor
  · intro hlookup
    obtain ⟨before, after, rfl, -⟩ := List.lookup_eq_some_iff.1 hlookup
    exact List.mem_append_right before List.mem_cons_self
  · intro hmem
    refine lookup_eq_some_of_unique hmem fun w hw => ?_
    exact (Prod.mk.inj (List.inj_on_of_nodup_map h hw hmem rfl)).2

theorem lookup_eq_none_iff {fields : List (String × α)} :
    fields.lookup key = none ↔ key ∉ fields.map (·.1) := by
  rw [List.lookup_eq_none_iff, List.mem_map]
  simp only [bne_iff_ne, ne_eq, not_exists, not_and]
  exact forall₂_congr fun f _ => not_congr eq_comm

theorem map_fst_set {fields : List (String × α)} {value : α} :
    (set fields name value).map (·.1) =
      if name ∈ fields.map (·.1) then fields.map (·.1) else fields.map (·.1) ++ [name] := by
  have hany : fields.any (·.1 == name) = true ↔ name ∈ fields.map (·.1) := by
    simp only [List.any_eq_true, beq_iff_eq, List.mem_map]
  unfold set
  by_cases h : name ∈ fields.map (·.1)
  · rw [if_pos (hany.2 h), if_pos h, List.map_map]
    refine List.map_congr_left fun f _ => ?_
    by_cases hsame : (f.1 == name) = true
    · rw [Function.comp, if_pos hsame, beq_iff_eq.1 hsame]
    · rw [Function.comp, if_neg hsame]
  · rw [if_neg fun hsome => h (hany.1 hsome), if_neg h, List.map_append]
    rfl

theorem nodup_set {fields : List (String × α)} {value : α} (h : (fields.map (·.1)).Nodup) :
    ((set fields name value).map (·.1)).Nodup := by
  rw [map_fst_set]
  split
  · exact h
  · rename_i hnew
    exact List.Nodup.append h (List.nodup_singleton name) (by simpa using hnew)

/-- `set` keeps names distinct, any number of times. -/
theorem nodup_foldl_set {fields : List (String × α)} (h : (fields.map (·.1)).Nodup)
    (changes : List (String × α)) :
    ((changes.foldl (fun all s => set all s.1 s.2) fields).map (·.1)).Nodup := by
  induction changes generalizing fields with
  | nil => exact h
  | cons change rest ih => exact ih (nodup_set h)

/-- Setting `changes` one after the other looks up first in `changes`, then in `fields`. -/
theorem lookup_foldl_set {fields changes : List (String × α)} (h : (changes.map (·.1)).Nodup) :
    (changes.foldl (fun all s => set all s.1 s.2) fields).lookup key =
      (changes.lookup key).or (fields.lookup key) := by
  induction changes generalizing fields with
  | nil => rfl
  | cons change rest ih =>
    obtain ⟨hchange, hrest⟩ := List.nodup_cons.1 h
    rw [List.foldl_cons, ih hrest, List.lookup_cons]
    by_cases hkey : key = change.1
    · subst hkey
      rw [lookup_eq_none_iff.2 hchange, lookup_set_self, beq_self_eq_true]
      rfl
    · rw [lookup_set_of_ne hkey, beq_false_of_ne hkey]

/-- `set` under `name` does not change `find key` if `key` and `name` differ and not only in case.
-/
theorem find_set_of_ne (h : key ≠ name) (hfold : Text.sameFold name key = false) :
    find (set fields name value) key = fields.find key := by
  have hsearch : ((set fields name value).find? fun f => Text.sameFold f.1 key).map (·.2) =
      (fields.find? fun f => Text.sameFold f.1 key).map (·.2) := by
    unfold set
    split
    · -- names are kept in place, and a field that is found is not the new one
      have hnames : (fun f => Text.sameFold f.1 key) ∘
          (fun f : String × Value => if f.1 == name then (name, value) else f) =
          fun f => Text.sameFold f.1 key := by
        funext f
        by_cases hsame : (f.1 == name) = true
        · rw [Function.comp, if_pos hsame, beq_iff_eq.1 hsame]
        · rw [Function.comp, if_neg hsame]
      rw [List.find?_map, hnames, Option.map_map]
      cases hfound : fields.find? fun f => Text.sameFold f.1 key with
      | none => rfl
      | some f =>
        have hf := List.find?_some hfound
        have hother : ¬ (f.1 == name) = true := by
          intro hsame
          rw [beq_iff_eq.1 hsame, hfold] at hf
          cases hf
        rw [Option.map_some, Option.map_some, Function.comp, if_neg hother]
    · have hnew : [(name, value)].find? (fun f => Text.sameFold f.1 key) = none := by
        simp [hfold]
      rw [List.find?_append, hnew, Option.or_none]
  unfold find
  rw [lookup_set_of_ne h, hsearch]

theorem find_eq_of_lookup (h : fields.lookup key = some v) : fields.find key = v := by
  unfold find
  rw [h]
  rfl

/-! ### Merging -/

theorem merge_cons (below : Settings) (name : String) (value : Value) (rest : Settings) :
    merge below ((name, value) :: rest) =
      merge (set below name (mergeValue (below.lookup name) value)) rest := by
  rw [merge]

/-- A value that is no map replaces what was there. -/
theorem mergeValue_of_ne_map (h : ∀ fields, v ≠ .map fields) (old : Option Value) :
    mergeValue old v = v := by
  unfold mergeValue
  split
  · exact absurd rfl (h _)
  · rfl

/-- A map is merged into a map, and replaces anything else. -/
theorem mergeValue_map (old : Option Value) (fields : Settings) :
    mergeValue old (.map fields) = .map fields ∨
      ∃ below, mergeValue old (.map fields) = .map (merge below fields) := by
  unfold mergeValue
  split
  · exact .inr ⟨_, rfl⟩
  · exact .inl rfl

theorem nodup_merge (h : (below.map (·.1)).Nodup) : ((merge below above).map (·.1)).Nodup := by
  induction above generalizing below with
  | nil =>
    rw [merge]
    exact h
  | cons f rest ih =>
    rw [merge_cons]
    exact ih (nodup_set h)

/-- **`lookup` in a merge**: the value of `above`, merged into that of `below`; or else that of
`below`. -/
theorem lookup_merge (h : (above.map (·.1)).Nodup) :
    (merge below above).lookup key =
      ((above.lookup key).map (mergeValue (below.lookup key))).or (below.lookup key) := by
  induction above generalizing below with
  | nil =>
    rw [merge]
    rfl
  | cons f rest ih =>
    obtain ⟨hf, hrest⟩ := List.nodup_cons.1 h
    rw [merge_cons, ih hrest, List.lookup_cons]
    by_cases hkey : key = f.1
    · subst hkey
      rw [lookup_eq_none_iff.2 hf, lookup_set_self, beq_self_eq_true]
      rfl
    · rw [lookup_set_of_ne hkey, beq_false_of_ne hkey]

end SchemaPress.Settings
