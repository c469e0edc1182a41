import SchemaPress.Proofs.Collapsed
import SchemaPress.Proofs.Model.Properties

/-!
# The history of a collection of properties

A collection is a history of properties that were set, collapsed to the last one of each name
(`collapsed_ofList`).  `IsOrderedMap` puts that in terms of everything a collection can be asked
for: its names, its items and its index describe one list, `get?` finds the last property that was
set under a name, and `each` goes through the properties until a visit refuses to go on.
-/

namespace SchemaPress.Properties

/-! ### Looking up and setting -/

namespace Indexed

variable {ps : Properties}

/-- `ps.names[place]` is the name of `ps.items[place]`. -/
theorem getElem?_names (h : ps.Indexed) (place : Nat) :
    ps.names[place]? = ps.items[place]?.map (·.name) := by
  rw [h.names_eq, Array.getElem?_map]

/-- `ps.index` leads to places of `ps.items` only. -/
theorem lt_size_of_index (h : ps.Indexed) {name : String} {place : Nat}
    (hplace : ps.index[name]? = some place) : place < ps.items.size := by
  rw [h.index_eq_some_iff, h.getElem?_names] at hplace
  obtain ⟨p, hp, -⟩ := Option.map_eq_some_iff.1 hplace
  exact (Array.getElem?_eq_some_iff.1 hp).1

/-- `ps.index` leads from the name of an item to its place. -/
theorem index_of_getElem? (h : ps.Indexed) {i : Nat} {q : Property} (hq : ps.items[i]? = some q) :
    ps.index[q.name]? = some i := by
  rw [h.index_eq_some_iff, h.getElem?_names, hq, Option.map_some]

/-- An item has the name `name` exactly if it is at the place that `ps.index` has for it. -/
theorem name_eq_iff (h : ps.Indexed) {name : String} {place i : Nat} {q : Property}
    (hplace : ps.index[name]? = some place) (hq : ps.items[i]? = some q) :
    q.name = name ↔ i = place := by
  have hi := h.index_of_getElem? hq
  constructor
  · rintro rfl
    exact Option.some.inj (hi.symm.trans hplace)
  · rintro rfl
    rw [h.index_eq_some_iff] at hi hplace
    exact Option.some.inj (hi.symm.trans hplace)

/-- `get?` is a search through `toList`. -/
theorem get?_eq_find? (h : ps.Indexed) (name : String) :
    ps.get? name = ps.toList.find? (·.name == name) := by
  refine Option.ext fun p => ?_
  rw [find?_eq_some_iff_of_nodup h.names_nodup, get?, Option.bind_eq_some_iff, toList,
    Array.mem_toList_iff, Array.mem_iff_getElem?]
  constructor
  · rintro ⟨place, hplace, hp⟩
    exact ⟨⟨place, hp⟩, (h.name_eq_iff hplace hp).2 rfl⟩
  · rintro ⟨⟨place, hp⟩, rfl⟩
    exact ⟨place, h.index_of_getElem? hp, hp⟩

/-- `set` of a property with a known name replaces the item at its place. -/
theorem toList_set_of_index {p : Property} {place : Nat} (hplace : ps.index[p.name]? = some place) :
    (ps.set p).toList = ps.toList.set place p := by
  rw [Properties.set, hplace]
  exact Array.toList_setIfInBounds

theorem map_name_set (h : ps.Indexed) (p : Property) :
    (ps.set p).toList.map (·.name) =
      if p.name ∈ ps.toList.map (·.name) then ps.toList.map (·.name)
      else ps.toList.map (·.name) ++ [p.name] := by
  cases hp : ps.index[p.name]? with
  | none =>
    rw [(h.set_new hp).2, if_neg ((h.index_eq_none_iff _).1 hp), List.map_append,
      List.map_singleton]
  | some place =>
    have hknown : p.name ∈ ps.toList.map (·.name) := by
      by_contra hnew
      rw [(h.index_eq_none_iff _).2 hnew] at hp
      cases hp
    have hnames : (ps.set p).names = ps.names := by rw [Properties.set, hp]
    rw [if_pos hknown, (h.set p).toList_names, h.toList_names, hnames]

theorem mem_toList_set_iff (h : ps.Indexed) (p q : Property) :
    q ∈ (ps.set p).toList ↔ q = p ∨ q ∈ ps.toList ∧ q.name ≠ p.name := by
  cases hp : ps.index[p.name]? with
  | none =>
    have hnew := (h.index_eq_none_iff _).1 hp
    rw [(h.set_new hp).2, List.mem_append, List.mem_singleton, or_comm]
    refine or_congr_right (iff_self_and.2 fun hq hname => hnew ?_)
    rw [← hname]
    exact List.mem_map_of_mem hq
  | some place =>
    have hlt : place < ps.toList.length := h.lt_size_of_index hp
    have hname : ∀ i, ps.toList[i]? = some q → (q.name = p.name ↔ i = place) := fun i hi =>
      h.name_eq_iff hp (by rwa [← Array.getElem?_toList])
    rw [toList_set_of_index hp, List.mem_iff_getElem?, List.mem_iff_getElem?]
    constructor
    · rintro ⟨i, hi⟩
      by_cases hplace : i = place
      · rw [hplace, List.getElem?_set_self hlt] at hi
        exact .inl (Option.some.inj hi).symm
      · rw [List.getElem?_set_ne (Ne.symm hplace)] at hi
        exact .inr ⟨⟨i, hi⟩, fun heq => hplace ((hname i hi).1 heq)⟩
    · rintro (rfl | ⟨⟨i, hi⟩, hne⟩)
      · exact ⟨place, List.getElem?_set_self hlt⟩
      · -- The item stands elsewhere, because it has another name.
        have hplace : place ≠ i := fun heq => hne ((hname i hi).2 heq.symm)
        exact ⟨i, (List.getElem?_set_ne hplace).trans hi⟩

end Indexed

/-- **`ofList qs` is `qs`, collapsed to the last property of each name.** -/
theorem collapsed_ofList (qs : List Property) : Collapsed (·.name) qs (ofList qs).toList := by
  induction qs using List.reverseRecOn with
  | nil => exact .nil
  | append_singleton qs q ih =>
    have hset : ofList (qs ++ [q]) = (ofList qs).set q := by
      rw [ofList, List.foldl_append]
      rfl
    rw [hset]
    exact ih.concat ((indexed_ofList qs).map_name_set q) ((indexed_ofList qs).mem_toList_set_iff q)

/-! ### Visiting -/

section Visiting

variable {σ : Type} (visit : σ → Property → σ × Bool) (start : σ)

/-- What `visit` gathers over the properties `seen`, one after the other. -/
def gathered (seen : List Property) : σ :=
  seen.foldl (fun state p => (visit state p).1) start

/-- `seen` are the properties of `items` that are visited until a visit answers `false`. -/
structure Visits (items seen : List Property) : Prop where
  /-- They are the first ones, in order. -/
  leading : seen <+: items
  /-- No visit comes after the answer `false`. -/
  stops : ∀ before p after, seen = before ++ p :: after →
    (visit (gathered visit start before) p).2 = false → after = []
  /-- Without the answer `false`, all properties are visited. -/
  goes_on : seen ≠ items →
    ∃ before p, seen = before ++ [p] ∧ (visit (gathered visit start before) p).2 = false

variable {visit start}

theorem exists_visits (items : List Property) :
    ∃ seen, Visits visit start items seen ∧
      visitList visit start items = gathered visit start seen := by
  induction items generalizing start with
  | nil =>
    exact ⟨[], ⟨List.prefix_rfl, fun before p after h => by simp at h, fun h => absurd rfl h⟩, rfl⟩
  | cons q items ih =>
    rw [visitList]
    rcases hq : visit start q with ⟨state, _ | _⟩
    · -- The first visit is the last.
      have hstate : gathered visit start [q] = state := congrArg Prod.fst hq
      refine ⟨[q], ⟨⟨items, rfl⟩, fun before p after h _ => ?_, fun _ => ?_⟩, hstate.symm⟩
      · exact (List.append_eq_singleton_iff.1 h.symm).elim (fun h => (List.cons.inj h.2).2)
          fun h => absurd h.2 (List.cons_ne_nil _ _)
      · exact ⟨[], q, rfl, congrArg Prod.snd hq⟩
    · -- The others are visited with what the first visit has gathered.
      obtain ⟨seen, hseen, hlist⟩ := @ih state
      have hstate : ∀ more, gathered visit start (q :: more) = gathered visit state more := by
        intro more
        rw [gathered, List.foldl_cons, hq]
        rfl
      refine ⟨q :: seen, ⟨?_, fun before p after h hrefuse => ?_, fun hne => ?_⟩, ?_⟩
      · exact (List.prefix_cons_inj q).2 hseen.leading
      · cases before with
        | nil =>
          obtain ⟨rfl, rfl⟩ := List.cons.inj h
          rw [gathered, List.foldl_nil, hq] at hrefuse
          cases hrefuse
        | cons b before =>
          obtain ⟨rfl, hmore⟩ := List.cons.inj h
          rw [hstate] at hrefuse
          exact hseen.stops before p after hmore hrefuse
      · have hrest : seen ≠ items := fun heq => hne (by rw [heq])
        obtain ⟨before, p, rfl, hrefuse⟩ := hseen.goes_on hrest
        refine ⟨q :: before, p, rfl, ?_⟩
        rwa [hstate]
      · rw [hstate]
        exact hlist

end Visiting

/-! ### Ordered maps -/

/-- `ps` is the ordered map of the properties in `history`. -/
structure IsOrderedMap (history : List Property) (ps : Properties) : Prop where
  /-- `names`, `items` and `index` describe one list. -/
  indexed : ps.Indexed
  /-- `index` leads to places of `items` only. -/
  in_range : ∀ (name : String) (place : Nat), ps.index[name]? = some place → place < ps.items.size
  /-- The names are distinct. -/
  names_nodup : ps.names.toList.Nodup
  /-- They are the names in `history`. -/
  mem_names_iff : ∀ name, name ∈ ps.names.toList ↔ name ∈ history.map (·.name)
  /-- They are in the order of their first occurrence in `history`. -/
  names_order : ps.names.toList.Pairwise fun a b =>
    (history.map (·.name)).idxOf a < (history.map (·.name)).idxOf b
  /-- `get? name` is the last property in `history` with that name. -/
  get?_eq_some_iff : ∀ name p, ps.get? name = some p ↔ p.name = name ∧ IsLast (·.name) history p
  /-- There is none exactly if the name is not in `history`. -/
  get?_eq_none_iff : ∀ name, ps.get? name = none ↔ name ∉ history.map (·.name)
  /-- `size` is the number of distinct names in `history`. -/
  size_eq : ps.size = (history.map (·.name)).dedup.length
  /-- `toList` is in the order of `names`. -/
  toList_names : ps.toList.map (·.name) = ps.names.toList
  /-- `toList` are the `get?` of all `names`. -/
  toList_get? : ps.toList.map some = ps.names.toList.map ps.get?
  /-- `each` visits `toList` in order, up to the first answer `false`. -/
  each_visits : ∀ {σ : Type} (visit : σ → Property → σ × Bool) (start : σ),
    ∃ seen, Visits visit start ps.toList seen ∧ ps.each visit start = gathered visit start seen

/-- **`ofList qs` is the ordered map of `qs`.** -/
theorem ofList_isOrderedMap (qs : List Property) : IsOrderedMap qs (ofList qs) := by
  have hindexed := indexed_ofList qs
  have hcollapsed := collapsed_ofList qs
  have hnames := hindexed.toList_names
  exact {
    indexed := hindexed
    in_range := fun _ _ => hindexed.lt_size_of_index
    names_nodup := hnames ▸ hcollapsed.nodup
    mem_names_iff := fun name => hnames ▸ hcollapsed.mem_map_key_iff
    names_order := hnames ▸ hcollapsed.order
    get?_eq_some_iff := fun name p => by
      rw [hindexed.get?_eq_find?, find?_eq_some_iff_of_nodup hcollapsed.nodup,
        hcollapsed.mem_iff, and_comm]
    get?_eq_none_iff := fun name => by
      rw [hindexed.get?_eq_find?, ← hcollapsed.mem_map_key_iff, List.find?_eq_none, List.mem_map]
      simp
    size_eq := hcollapsed.length_eq
    toList_names := hnames
    toList_get? := by
      rw [← hnames, List.map_map]
      refine List.map_congr_left fun p hp => ?_
      rw [Function.comp_apply, hindexed.get?_eq_find?]
      exact ((find?_eq_some_iff_of_nodup hcollapsed.nodup).2 ⟨hp, rfl⟩).symm
    each_visits := fun visit start => exists_visits (ofList qs).toList }

end SchemaPress.Properties
