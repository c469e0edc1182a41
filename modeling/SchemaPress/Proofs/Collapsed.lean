import Mathlib.Data.List.Dedup
import Mathlib.Data.List.Induction
import Mathlib.Data.List.Nodup

/-!
# Lists in which the last of each key counts

Where something is stored under a key again and again, the key keeps its place and the last that was
stored counts.  `Collapsed` says what is kept of a history then: each key once, in the order in
which the keys first occur (`order`), and under each key what occurs last (`mem_iff`).  One more
step of the history is `Collapsed.concat`.  What is kept has different keys (`nodup`), the same keys
as the history (`mem_map_key_iff`), and a search in it finds the last of a key (`find?_eq`).
-/

namespace SchemaPress

variable {α : Type} {key : α → String}

/-! ### The last of its key -/

/-- `x` is in `xs`, and no later element has the key `key x`. -/
def IsLast (key : α → String) (xs : List α) (x : α) : Prop :=
  ∃ before after, xs = before ++ x :: after ∧ ∀ y ∈ after, key y ≠ key x

theorem isLast_concat_iff {xs : List α} {x y : α} :
    IsLast key (xs ++ [y]) x ↔ y = x ∨ IsLast key xs x ∧ key y ≠ key x := by
  constructor
  · rintro ⟨before, after, hsplit, hafter⟩
    -- Either nothing comes behind the element, or what comes last is the new one.
    rcases List.eq_nil_or_concat after with rfl | ⟨after, last, rfl⟩
    · obtain ⟨-, hlast⟩ := List.append_inj' hsplit rfl
      exact .inl (List.cons.inj hlast).1
    · rw [List.concat_eq_append] at hsplit hafter
      rw [← List.cons_append, ← List.append_assoc] at hsplit
      obtain ⟨rfl, hlast⟩ := List.append_inj' hsplit rfl
      obtain rfl := (List.cons.inj hlast).1
      exact .inr ⟨⟨before, after, rfl, fun z hz => hafter z (List.mem_append_left _ hz)⟩,
        hafter y (List.mem_append_right _ List.mem_cons_self)⟩
  · rintro (rfl | ⟨⟨before, after, rfl, hafter⟩, hy⟩)
    · exact ⟨xs, [], rfl, fun z hz => absurd hz List.not_mem_nil⟩
    · refine ⟨before, after ++ [y], by simp, fun z hz => ?_⟩
      rcases List.mem_append.1 hz with hz | hz
      · exact hafter z hz
      · rwa [List.mem_singleton.1 hz]

/-- `IsLast` as a search from the end of `xs`. -/
theorem isLast_iff_find? {xs : List α} {x : α} :
    IsLast key xs x ↔ xs.reverse.find? (key · == key x) = some x := by
  induction xs using List.reverseRecOn with
  | nil => simp [IsLast]
  | append_singleton xs y ih =>
    rw [isLast_concat_iff, ih, List.reverse_append, List.reverse_singleton, List.singleton_append,
      List.find?_cons]
    by_cases hkey : key y = key x
    · rw [beq_iff_eq.2 hkey]
      simp [hkey]
    · rw [beq_false_of_ne hkey]
      have hne : y ≠ x := fun hyx => hkey (congrArg key hyx)
      simp [hkey, hne]

/-- The last element with its key in `xs.filterMap f` comes from some `y` in `xs`, and `f` takes
nothing after `y` to an element with that key. -/
theorem isLast_filterMap_iff {β : Type} {f : β → Option α} {xs : List β} {x : α} :
    IsLast key (xs.filterMap f) x ↔ ∃ before y after, xs = before ++ y :: after ∧
      f y = some x ∧ ∀ z ∈ after, ∀ w, f z = some w → key w ≠ key x := by
  constructor
  · rintro ⟨before, after, hsplit, hafter⟩
    obtain ⟨front, back, rfl, -, hback⟩ := List.filterMap_eq_append_iff.1 hsplit
    obtain ⟨skipped, y, rest, rfl, -, hy, rfl⟩ := List.filterMap_eq_cons_iff.1 hback
    refine ⟨front ++ skipped, y, rest, (List.append_assoc _ _ _).symm, hy, fun z hz w hw => ?_⟩
    exact hafter w (List.mem_filterMap.2 ⟨z, hz, hw⟩)
  · rintro ⟨before, y, after, rfl, hy, hafter⟩
    refine ⟨before.filterMap f, after.filterMap f, ?_, fun w hw => ?_⟩
    · rw [List.filterMap_append, List.filterMap_cons_some hy]
    · obtain ⟨z, hz, hw⟩ := List.mem_filterMap.1 hw
      exact hafter z hz w hw

/-- If the keys of `xs` are distinct, `find?` finds the one element with key `k`. -/
theorem find?_eq_some_iff_of_nodup {xs : List α} (h : (xs.map key).Nodup) {k : String} {x : α} :
    xs.find? (key · == k) = some x ↔ x ∈ xs ∧ key x = k := by
  constructor
  · intro hx
    exact ⟨List.mem_of_find?_eq_some hx, beq_iff_eq.1 (List.find?_some hx :)⟩
  · rintro ⟨hx, rfl⟩
    obtain ⟨y, hy⟩ : ∃ y, xs.find? (key · == key x) = some y :=
      Option.isSome_iff_exists.1 (List.find?_isSome.2 ⟨x, hx, beq_self_eq_true _⟩)
    have hkey : key y = key x := beq_iff_eq.1 (List.find?_some hy :)
    rw [hy, List.inj_on_of_nodup_map h (List.mem_of_find?_eq_some hy) hx hkey]

/-! ### Collapsed histories -/

/-- `kept` has one element for each key of `history`. -/
structure Collapsed (key : α → String) (history kept : List α) : Prop where
  /-- The keys of `kept` are in the order of their first occurrence in `history`. -/
  order : (kept.map key).Pairwise fun a b =>
    (history.map key).idxOf a < (history.map key).idxOf b
  /-- The element of `kept` with a given key is the last one of `history`. -/
  mem_iff : ∀ x, x ∈ kept ↔ IsLast key history x

namespace Collapsed

variable {history kept : List α}

theorem nil : Collapsed key [] [] where
  order := .nil
  mem_iff x := by simp [IsLast]

/-- The keys of `kept` are distinct. -/
theorem nodup (h : Collapsed key history kept) : (kept.map key).Nodup :=
  h.order.imp fun hlt heq => absurd (heq ▸ hlt) (Nat.lt_irrefl _)

/-- A search for `k` in `kept` finds the last element of `history` with key `k`. -/
theorem find?_eq (h : Collapsed key history kept) (k : String) :
    kept.find? (key · == k) = history.reverse.find? (key · == k) := by
  refine Option.ext fun x => ?_
  rw [find?_eq_some_iff_of_nodup h.nodup, h.mem_iff]
  constructor
  · rintro ⟨hx, rfl⟩
    exact isLast_iff_find?.1 hx
  · intro hx
    obtain rfl : key x = k := beq_iff_eq.1 (List.find?_some hx :)
    exact ⟨isLast_iff_find?.2 hx, rfl⟩

/-- `kept` and `history` have the same keys. -/
theorem mem_map_key_iff (h : Collapsed key history kept) {k : String} :
    k ∈ kept.map key ↔ k ∈ history.map key := by
  have hsome (xs : List α) : k ∈ xs.map key ↔ (xs.find? (key · == k)).isSome = true := by
    rw [List.find?_isSome, List.mem_map]
    simp only [beq_iff_eq]
  rw [hsome, h.find?_eq, ← hsome, List.map_reverse, List.mem_reverse]

/-- `kept` has as many elements as `history` has distinct keys. -/
theorem length_eq (h : Collapsed key history kept) :
    kept.length = (history.map key).dedup.length := by
  have hperm : (kept.map key).Perm (history.map key).dedup := by
    rw [List.perm_ext_iff_of_nodup h.nodup (List.nodup_dedup _)]
    intro k
    rw [h.mem_map_key_iff, List.mem_dedup]
  rw [← hperm.length_eq, List.length_map]

/-- **One more step `x` of a history**: if `key x` is new it goes to the end, otherwise its place
stays, and `x` takes the place of the element with its key. -/
theorem concat (h : Collapsed key history kept) {x : α} {kept' : List α}
    (hkeys : kept'.map key =
      if key x ∈ kept.map key then kept.map key else kept.map key ++ [key x])
    (hmem : ∀ y, y ∈ kept' ↔ y = x ∨ y ∈ kept ∧ key y ≠ key x) :
    Collapsed key (history ++ [x]) kept' where
  order := by
    -- The keys that were there have their first places as before.
    have hold : (kept.map key).Pairwise fun a b =>
        (history.map key ++ [key x]).idxOf a < (history.map key ++ [key x]).idxOf b :=
      h.order.imp_of_mem fun ha hb hlt => by
        rwa [List.idxOf_append_of_mem (h.mem_map_key_iff.1 ha),
          List.idxOf_append_of_mem (h.mem_map_key_iff.1 hb)]
    rw [hkeys, List.map_append, List.map_singleton]
    split_ifs with hx
    · exact hold
    · refine List.pairwise_append.2 ⟨hold, List.pairwise_singleton _ _, fun a ha b hb => ?_⟩
      have hb' : b ∉ history.map key := by
        rwa [List.mem_singleton.1 hb, ← h.mem_map_key_iff]
      rw [List.idxOf_append_of_mem (h.mem_map_key_iff.1 ha), List.idxOf_append_of_notMem hb']
      have := List.idxOf_lt_length_of_mem (h.mem_map_key_iff.1 ha)
      omega
  mem_iff y := by
    rw [hmem, h.mem_iff, isLast_concat_iff, eq_comm, ne_comm]

end Collapsed

end SchemaPress
