import Mathlib.Data.List.Nodup
import SchemaPress.Model.Properties

/-!
# The index of a collection of properties

A collection built by `set` is `Indexed`: the names are those of the items, and the index leads from
a name to its place and from nothing else anywhere (`indexed_ofList`).  So no name is there twice
(`Indexed.names_nodup`), and properties with different names come out as they went in
(`toList_ofList`).
-/

namespace SchemaPress.Properties

/-- `names`, `items` and `index` describe one list. -/
structure Indexed (ps : Properties) : Prop where
  /-- `names` are the names of `items`. -/
  names_eq : ps.names = ps.items.map (·.name)
  /-- `index` is the inverse of `names`. -/
  index_eq_some_iff : ∀ (name : String) (place : Nat),
    ps.index[name]? = some place ↔ ps.names[place]? = some name

theorem indexed_empty : empty.Indexed where
  names_eq := by simp [empty]
  index_eq_some_iff name place := by simp [empty]

namespace Indexed

variable {ps : Properties}

theorem toList_names (h : ps.Indexed) : ps.toList.map (·.name) = ps.names.toList := by
  rw [h.names_eq, Array.toList_map]
  rfl

/-- The names are distinct, since `index` has one place for each. -/
theorem names_nodup (h : ps.Indexed) : (ps.toList.map (·.name)).Nodup := by
  rw [h.toList_names, List.nodup_iff_getElem?_ne_getElem?]
  intro i j hij hj heq
  obtain ⟨name, hname⟩ : ∃ name, ps.names.toList[j]? = some name :=
    ⟨_, List.getElem?_eq_getElem hj⟩
  rw [hname] at heq
  rw [Array.getElem?_toList] at heq hname
  have hi := (h.index_eq_some_iff name i).mpr heq
  rw [(h.index_eq_some_iff name j).mpr hname] at hi
  have : j = i := Option.some.inj hi
  omega

/-- A name that is not in `index` is not the name of a property. -/
theorem index_eq_none_iff (h : ps.Indexed) (name : String) :
    ps.index[name]? = none ↔ name ∉ ps.toList.map (·.name) := by
  rw [h.toList_names, List.mem_iff_getElem?, Option.eq_none_iff_forall_ne_some, not_exists]
  refine forall_congr' fun place => not_congr ?_
  rw [h.index_eq_some_iff, Array.getElem?_toList]

/-- `set` of a property with a known name keeps `Indexed`. -/
theorem set_known (h : ps.Indexed) {p : Property} {place : Nat}
    (hp : ps.index[p.name]? = some place) : (ps.set p).Indexed := by
  have hplace : ps.names[place]? = some p.name := (h.index_eq_some_iff _ _).mp hp
  have hset : ps.set p = { ps with items := ps.items.setIfInBounds place p } := by
    unfold set
    rw [hp]
  rw [hset]
  refine ⟨?_, h.index_eq_some_iff⟩
  show ps.names = (ps.items.setIfInBounds place p).map (·.name)
  rw [Array.map_setIfInBounds, ← h.names_eq]
  obtain ⟨hlt, hname⟩ := Array.getElem?_eq_some_iff.mp hplace
  rw [← hname, Array.setIfInBounds_def, dif_pos hlt, Array.set_getElem_self]

/-- `set` of a property with a new name appends it. -/
theorem set_new (h : ps.Indexed) {p : Property} (hp : ps.index[p.name]? = none) :
    (ps.set p).Indexed ∧ (ps.set p).toList = ps.toList ++ [p] := by
  have hset : ps.set p =
      ⟨ps.names.push p.name, ps.items.push p, ps.index.insert p.name ps.items.size⟩ := by
    unfold set
    rw [hp]
  have hsize : ps.names.size = ps.items.size := by rw [h.names_eq, Array.size_map]
  have hfresh : ∀ place : Nat, ps.names[place]? ≠ some p.name := by
    intro place hplace
    rw [(h.index_eq_some_iff _ _).mpr hplace] at hp
    cases hp
  rw [hset]
  refine ⟨⟨?_, ?_⟩, Array.toList_push⟩
  · show ps.names.push p.name = (ps.items.push p).map (·.name)
    rw [Array.map_push, ← h.names_eq]
  · intro name place
    show (ps.index.insert p.name ps.items.size)[name]? = some place
      ↔ (ps.names.push p.name)[place]? = some name
    rw [Std.HashMap.getElem?_insert, Array.getElem?_push, hsize]
    -- The new name has no other place, and no other name has the new place.
    by_cases hname : p.name = name
    · subst hname
      simp only [BEq.rfl, if_true, Option.some.injEq]
      by_cases hplace : place = ps.items.size
      · simp [hplace]
      · simp [hplace, hfresh, Ne.symm hplace]
    · rw [if_neg (by simpa using hname), h.index_eq_some_iff]
      by_cases hplace : place = ps.items.size
      · have hnone : ps.names[place]? = none := Array.getElem?_eq_none (by omega)
        rw [hnone, if_pos hplace]
        simp [hname]
      · rw [if_neg hplace]

theorem set (h : ps.Indexed) (p : Property) : (ps.set p).Indexed := by
  cases hp : ps.index[p.name]? with
  | none => exact (h.set_new hp).1
  | some place => exact h.set_known hp

theorem foldl_set (h : ps.Indexed) (qs : List Property) : (qs.foldl Properties.set ps).Indexed := by
  induction qs generalizing ps with
  | nil => exact h
  | cons q qs ih => exact ih (h.set q)

/-- `set` of properties with new and distinct names appends them in order. -/
theorem toList_foldl_set (h : ps.Indexed) (qs : List Property)
    (hnodup : (ps.toList.map (·.name) ++ qs.map (·.name)).Nodup) :
    (qs.foldl Properties.set ps).toList = ps.toList ++ qs := by
  induction qs generalizing ps with
  | nil => rw [List.foldl_nil, List.append_nil]
  | cons q qs ih =>
    have hq : ps.index[q.name]? = none := by
      rw [h.index_eq_none_iff]
      intro hmem
      exact (List.nodup_append.mp hnodup).2.2 _ hmem _ List.mem_cons_self rfl
    obtain ⟨hset, hlist⟩ := h.set_new hq
    rw [List.foldl_cons, ih hset, hlist, List.append_assoc, List.singleton_append]
    rw [hlist, List.map_append, List.append_assoc]
    exact hnodup

end Indexed

theorem indexed_ofList (qs : List Property) : (ofList qs).Indexed :=
  indexed_empty.foldl_set qs

/-- **`ofList qs` has the properties `qs`**, if their names are distinct. -/
theorem toList_ofList {qs : List Property} (h : (qs.map (·.name)).Nodup) :
    (ofList qs).toList = qs :=
  indexed_empty.toList_foldl_set qs h

end SchemaPress.Properties
