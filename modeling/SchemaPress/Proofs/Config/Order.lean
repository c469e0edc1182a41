import SchemaPress.Config.Loading
import SchemaPress.Proofs.Config.Settings
import SchemaPress.Proofs.Value.Alike

/-!
# Configurations and the order of fields

An `Order` decides which of several fields for one name counts: which of those with the same name
`keepFirst` keeps, and in which spelling `find` finds a name that is not there exactly.  A payload
is `Unambiguous` if there is nothing to decide.  In another order its maps are the same finite maps
(`arrangeValue_alike`), so names lead to alike values (`find_rel`), and the configuration is the
same up to the order of its projects (`ofSettings?_rel`) and of what is wrong with them
(`sameResult_validate`).
-/

namespace SchemaPress

namespace Settings

variable {fields fields' below above : Settings} {name key : String} {v v' : Value}
  {order order' : Order} {way way' : List Nat}

/-! ### Fields as finite maps -/

/-- `fields` and `fields'` have distinct names, the same ones, and equal names have alike values. -/
structure Alike (fields fields' : Settings) : Prop where
  nodup : (fields.map (·.1)).Nodup
  nodup' : (fields'.map (·.1)).Nodup
  lookup : ∀ name, Option.Rel Value.Alike (fields.lookup name) (fields'.lookup name)

theorem Alike.of_map (h : (Value.map fields).Alike (.map fields'))
    (hnodup : (fields.map (·.1)).Nodup) : Alike fields fields' := by
  cases h with
  | refl =>
    refine ⟨hnodup, hnodup, fun name => ?_⟩
    cases fields.lookup name with
    | none => exact .none
    | some v => exact .some (.refl v)
  | map nodup nodup' names alike =>
    refine ⟨nodup, nodup', fun name => ?_⟩
    cases hlookup : fields.lookup name with
    | none =>
      have hnone : fields'.lookup name = none := by
        rw [lookup_eq_none_iff, ← names, ← lookup_eq_none_iff, hlookup]
      rw [hnone]
      exact .none
    | some v =>
      have hmem := (lookup_eq_some_iff nodup).1 hlookup
      have hname : name ∈ fields'.map (·.1) := (names name).1 (List.mem_map_of_mem hmem)
      obtain ⟨⟨_, v'⟩, hmem', rfl⟩ := List.mem_map.1 hname
      rw [(lookup_eq_some_iff nodup').2 hmem']
      exact .some (alike _ v v' hmem hmem')

/-! ### Names that lead to one value -/

/-- `key` is `name`, or equal to it up to `Text.sameFold`. -/
def Spells (key name : String) : Prop :=
  key = name ∨ Text.sameFold key name = true

/-- `name` is a key of `fields`, or at most one key of `fields` spells it. -/
def Determines (fields : Settings) (name : String) : Prop :=
  name ∈ fields.map (·.1) ∨
    ∀ key ∈ fields.map (·.1), ∀ key' ∈ fields.map (·.1),
      Text.sameFold key name = true → Text.sameFold key' name = true → key = key'

instance (fields : Settings) (name : String) : Decidable (fields.Determines name) :=
  inferInstanceAs (Decidable (_ ∨ _))

theorem Determines.congr (h : fields.Determines name)
    (hnames : ∀ key, Spells key name → (key ∈ fields.map (·.1) ↔ key ∈ fields'.map (·.1))) :
    fields'.Determines name := by
  rcases h with hexact | hspellings
  · exact .inl ((hnames name (.inl rfl)).1 hexact)
  · exact .inr fun key hkey key' hkey' hfold hfold' => hspellings
      key ((hnames key (.inr hfold)).2 hkey) key' ((hnames key' (.inr hfold')).2 hkey') hfold hfold'

/-- The key of `fields` at which `find` finds `name`. -/
def spelling? (fields : Settings) (name : String) : Option String :=
  if name ∈ fields.map (·.1) then some name
  else (fields.map (·.1)).find? fun key => Text.sameFold key name

theorem spelling?_eq_some_iff (h : fields.Determines name) :
    fields.spelling? name = some key ↔
      key ∈ fields.map (·.1) ∧ (key = name ∨
        name ∉ fields.map (·.1) ∧ Text.sameFold key name = true) := by
  unfold spelling?
  split
  · rename_i hexact
    rw [Option.some_inj, eq_comm]
    constructor
    · rintro rfl
      exact ⟨hexact, .inl rfl⟩
    · rintro ⟨-, rfl | ⟨hnot, -⟩⟩
      · rfl
      · exact absurd hexact hnot
  · rename_i hnot
    have hspellings := h.resolve_left hnot
    constructor
    · intro hfound
      have hfold : Text.sameFold key name = true := by simpa using List.find?_some hfound
      exact ⟨List.mem_of_find?_eq_some hfound, .inr ⟨hnot, hfold⟩⟩
    · rintro ⟨hmem, rfl | ⟨-, hfold⟩⟩
      · exact absurd hmem hnot
      · -- Whatever is found first is the only spelling.
        have hsome : ((fields.map (·.1)).find? fun k => Text.sameFold k name).isSome = true :=
          List.find?_isSome.2 ⟨key, hmem, hfold⟩
        obtain ⟨first, hfirst⟩ := Option.isSome_iff_exists.1 hsome
        have hfold' : Text.sameFold first name = true := by simpa using List.find?_some hfirst
        rw [hfirst, hspellings first (List.mem_of_find?_eq_some hfirst) key hmem hfold' hfold]

theorem spelling?_congr (h : fields.Determines name)
    (hnames : ∀ key, Spells key name → (key ∈ fields.map (·.1) ↔ key ∈ fields'.map (·.1))) :
    fields.spelling? name = fields'.spelling? name := by
  refine Option.ext fun key => ?_
  rw [spelling?_eq_some_iff h, spelling?_eq_some_iff (h.congr hnames), hnames name (.inl rfl)]
  refine and_congr_left fun hkey => hnames key ?_
  exact hkey.imp_right And.right

theorem mem_names_of_lookup (h : fields.lookup name = some v) : name ∈ fields.map (·.1) := by
  by_contra hnot
  rw [lookup_eq_none_iff.2 hnot] at h
  cases h

theorem find_eq (hnodup : (fields.map (·.1)).Nodup) (name : String) :
    fields.find name = ((fields.spelling? name).bind (fields.lookup ·)).getD .null := by
  unfold find spelling?
  cases hexact : fields.lookup name with
  | some v =>
    rw [if_pos (mem_names_of_lookup hexact), Option.bind_some, hexact]
    rfl
  | none =>
    rw [if_neg (lookup_eq_none_iff.1 hexact), List.find?_map]
    cases hfound : fields.find? fun f => Text.sameFold f.1 name with
    | none =>
      rw [Function.comp_def, hfound]
      rfl
    | some f =>
      have hf := (lookup_eq_some_iff hnodup).2 (List.mem_of_find?_eq_some hfound)
      rw [Function.comp_def, hfound, Option.map_some, Option.map_some, Option.bind_some, hf]
      rfl

/-- **`find` takes related fields to related values**, if `fields` determines `name`.  Only the keys
that spell `name` have to be related. -/
theorem find_rel {R : Value → Value → Prop} (hnull : R .null .null)
    (hnodup : (fields.map (·.1)).Nodup) (hnodup' : (fields'.map (·.1)).Nodup)
    (hname : fields.Determines name)
    (h : ∀ key, Spells key name → Option.Rel R (fields.lookup key) (fields'.lookup key)) :
    R (fields.find name) (fields'.find name) := by
  have hnames : ∀ key, Spells key name →
      (key ∈ fields.map (·.1) ↔ key ∈ fields'.map (·.1)) := by
    intro key hkey
    have hrel := h key hkey
    rw [← not_iff_not, ← lookup_eq_none_iff, ← lookup_eq_none_iff]
    generalize fields.lookup key = a at hrel
    generalize fields'.lookup key = b at hrel
    cases hrel with
    | none => rfl
    | some => simp
  -- `find` looks at the same key in both, where the values are related.
  rw [find_eq hnodup, find_eq hnodup', ← spelling?_congr hname hnames]
  cases hspelling : fields.spelling? name with
  | none => exact hnull
  | some key =>
    have hkey : Spells key name := ((spelling?_eq_some_iff hname).1 hspelling).2.imp_right And.right
    have hrel := h key hkey
    rw [Option.bind_some, Option.bind_some]
    generalize fields.lookup key = a at hrel
    generalize fields'.lookup key = b at hrel
    cases hrel with
    | none => exact hnull
    | some hrel => exact hrel

/-- The names that `ofSettings?` and `Project.ofValue?` look for. -/
def fieldNames : List String :=
  ["projects", "output", "input", "target", "overwrite", "from_url"]

end Settings

open Settings

/-- In every map of a value the names are distinct, and each of the `fieldNames` is there exactly or
in at most one spelling. -/
inductive Value.Unambiguous : Value → Prop
  | plain {v : Value} (hlist : ∀ items, v ≠ .list items) (hmap : ∀ fields, v ≠ .map fields) :
      v.Unambiguous
  | list {items : List Value} (h : ∀ v ∈ items, v.Unambiguous) : (Value.list items).Unambiguous
  | map {fields : Settings} (hnodup : (fields.map (·.1)).Nodup)
      (hnames : ∀ name ∈ fieldNames, fields.Determines name)
      (h : ∀ f ∈ fields, f.2.Unambiguous) : (Value.map fields).Unambiguous

namespace Value

mutual

/-- Whether a value is `Unambiguous`. -/
def isUnambiguous : Value → Bool
  | .list items => itemsUnambiguous items
  | .map fields =>
    decide ((fields.map (·.1)).Nodup ∧ ∀ name ∈ fieldNames, Determines fields name) &&
      fieldsUnambiguous fields
  | _ => true

/-- Whether all items are `Unambiguous`. -/
def itemsUnambiguous : List Value → Bool
  | [] => true
  | v :: rest => v.isUnambiguous && itemsUnambiguous rest

/-- Whether the values of all fields are `Unambiguous`. -/
def fieldsUnambiguous : List (String × Value) → Bool
  | [] => true
  | (_, v) :: rest => v.isUnambiguous && fieldsUnambiguous rest

end

mutual

theorem isUnambiguous_iff : (v : Value) → (v.isUnambiguous = true ↔ v.Unambiguous)
  | .list items => by
    rw [isUnambiguous, itemsUnambiguous_iff items]
    refine ⟨.list, fun h => ?_⟩
    cases h with
    | plain hlist => exact absurd rfl (hlist items)
    | list h => exact h
  | .map fields => by
    rw [isUnambiguous, Bool.and_eq_true, decide_eq_true_iff, fieldsUnambiguous_iff fields]
    refine ⟨fun h => .map h.1.1 h.1.2 h.2, fun h => ?_⟩
    cases h with
    | plain _ hmap => exact absurd rfl (hmap fields)
    | map hnodup hnames h => exact ⟨⟨hnodup, hnames⟩, h⟩
  | .null | .bool _ | .int _ | .float _ | .text _ | .time _ =>
    ⟨fun _ => .plain nofun nofun, fun _ => rfl⟩

theorem itemsUnambiguous_iff : (items : List Value) →
    (itemsUnambiguous items = true ↔ ∀ v ∈ items, v.Unambiguous)
  | [] => ⟨fun _ => nofun, fun _ => rfl⟩
  | v :: rest => by
    rw [itemsUnambiguous, Bool.and_eq_true, isUnambiguous_iff v, itemsUnambiguous_iff rest,
      List.forall_mem_cons]

theorem fieldsUnambiguous_iff : (fields : List (String × Value)) →
    (fieldsUnambiguous fields = true ↔ ∀ f ∈ fields, f.2.Unambiguous)
  | [] => ⟨fun _ => nofun, fun _ => rfl⟩
  | (_, v) :: rest => by
    rw [fieldsUnambiguous, Bool.and_eq_true, isUnambiguous_iff v, fieldsUnambiguous_iff rest,
      List.forall_mem_cons]

end

instance (v : Value) : Decidable v.Unambiguous :=
  decidable_of_iff _ v.isUnambiguous_iff

end Value

namespace Settings

variable {fields fields' below above : Settings} {name key : String} {v v' : Value}
  {order order' : Order} {way way' : List Nat}

/-! ### Arranging -/

theorem keepFirst_of_nodup (h : (fields.map (·.1)).Nodup) : keepFirst fields = fields := by
  induction fields with
  | nil => rfl
  | cons f rest ih =>
    obtain ⟨hf, hrest⟩ := List.nodup_cons.1 h
    have hothers : (rest.filter fun g => g.1 != f.1) = rest := by
      rw [List.filter_eq_self]
      exact fun g hg => bne_iff_ne.2 fun heq => hf (List.mem_map.2 ⟨g, hg, heq⟩)
    rw [keepFirst, ih hrest, hothers]

theorem map_fst_arrangeFields (order : Order) (way : List Nat) (n : Nat) (fields : Settings) :
    (arrangeFields order way n fields).map (·.1) = fields.map (·.1) := by
  induction fields generalizing n with
  | nil => rw [arrangeFields]
  | cons f rest ih => rw [arrangeFields, List.map_cons, List.map_cons, ih]

/-- The fields of `arrangeFields` are the `fields` with arranged values. -/
theorem exists_of_mem_arrangeFields {n : Nat} {w : Value}
    (h : (name, w) ∈ arrangeFields order way n fields) :
    ∃ v place, (name, v) ∈ fields ∧ w = arrangeValue order place v := by
  induction fields generalizing n with
  | nil =>
    rw [arrangeFields] at h
    cases h
  | cons f rest ih =>
    rw [arrangeFields, List.mem_cons] at h
    rcases h with heq | h
    · cases heq
      exact ⟨f.2, n :: way, List.mem_cons_self, rfl⟩
    · obtain ⟨v, place, hmem, hw⟩ := ih h
      exact ⟨v, place, List.mem_cons_of_mem _ hmem, hw⟩

/-- The items of `arrangeItems` are the `items`, arranged one by one. -/
theorem getElem?_arrangeItems (order : Order) (way : List Nat) (n : Nat) (items : List Value)
    (i : Nat) :
    (arrangeItems order way n items)[i]? =
      items[i]?.map (arrangeValue order ((n + i) :: way)) := by
  induction items generalizing n i with
  | nil =>
    rw [arrangeItems]
    rfl
  | cons v rest ih =>
    rw [arrangeItems]
    cases i with
    | zero => rfl
    | succ i =>
      rw [List.getElem?_cons_succ, List.getElem?_cons_succ, ih, Nat.add_right_comm]
      rfl

theorem arrangeItems_length (order : Order) (way : List Nat) (n : Nat) (items : List Value) :
    (arrangeItems order way n items).length = items.length := by
  induction items generalizing n with
  | nil => rw [arrangeItems]
  | cons v rest ih => rw [arrangeItems, List.length_cons, List.length_cons, ih]

/-- If the names are distinct, `keepFirst` drops none of the fields that `order.visit` permutes. -/
theorem keepFirst_visit (order : Order) (way : List Nat) (h : (fields.map (·.1)).Nodup) :
    keepFirst (order.visit way (arrangeFields order way 0 fields)) =
        order.visit way (arrangeFields order way 0 fields) ∧
      ((order.visit way (arrangeFields order way 0 fields)).map (·.1)).Perm (fields.map (·.1)) := by
  have hperm : ((order.visit way (arrangeFields order way 0 fields)).map (·.1)).Perm
      (fields.map (·.1)) := by
    rw [← map_fst_arrangeFields order way 0 fields]
    exact (order.perm way _).map _
  exact ⟨keepFirst_of_nodup (hperm.nodup_iff.2 h), hperm⟩

/-- **Two orders arrange an unambiguous value alike.** -/
theorem arrangeValue_alike (order order' : Order) (h : v.Unambiguous) :
    ∀ way way', (arrangeValue order way v).Alike (arrangeValue order' way' v) := by
  induction h with
  | @plain v hlist hmap =>
    intro way way'
    cases v with
    | list items => exact absurd rfl (hlist items)
    | map fields => exact absurd rfl (hmap fields)
    | _ => exact .refl _
  | @list items h ih =>
    intro way way'
    rw [arrangeValue, arrangeValue]
    refine .list (by rw [arrangeItems_length, arrangeItems_length]) fun i w w' hw hw' => ?_
    rw [getElem?_arrangeItems, Option.map_eq_some_iff] at hw hw'
    obtain ⟨v, hv, rfl⟩ := hw
    obtain ⟨v', hv', rfl⟩ := hw'
    obtain rfl := Option.some.inj (hv.symm.trans hv')
    exact ih v (List.mem_of_getElem? hv) _ _
  | @map fields hnodup hnames h ih =>
    intro way way'
    obtain ⟨hkeep, hperm⟩ := keepFirst_visit order way hnodup
    obtain ⟨hkeep', hperm'⟩ := keepFirst_visit order' way' hnodup
    rw [arrangeValue, arrangeValue, hkeep, hkeep']
    refine .map (hperm.nodup_iff.2 hnodup) (hperm'.nodup_iff.2 hnodup)
      (fun name => hperm.mem_iff.trans hperm'.mem_iff.symm) fun name w w' hw hw' => ?_
    -- Both values under `name` come from the one field of that name.
    obtain ⟨v, place, hv, rfl⟩ :=
      exists_of_mem_arrangeFields ((order.perm way _).mem_iff.1 hw)
    obtain ⟨v', place', hv', rfl⟩ :=
      exists_of_mem_arrangeFields ((order'.perm way' _).mem_iff.1 hw')
    obtain rfl := (Prod.mk.inj (eq_of_mem_of_fst_eq hnodup hv hv' rfl)).2
    exact ih (name, v) hv place place'

/-- `arrangeValue` keeps values unambiguous. -/
theorem unambiguous_arrangeValue (order : Order) (h : v.Unambiguous) :
    ∀ way, (arrangeValue order way v).Unambiguous := by
  induction h with
  | @plain v hlist hmap =>
    intro way
    cases v with
    | list items => exact absurd rfl (hlist items)
    | map fields => exact absurd rfl (hmap fields)
    | _ => exact .plain hlist hmap
  | @list items h ih =>
    intro way
    rw [arrangeValue]
    refine .list fun w hw => ?_
    obtain ⟨i, hi⟩ := List.getElem?_of_mem hw
    rw [getElem?_arrangeItems, Option.map_eq_some_iff] at hi
    obtain ⟨v, hv, rfl⟩ := hi
    exact ih v (List.mem_of_getElem? hv) _
  | @map fields hnodup hnames h ih =>
    intro way
    obtain ⟨hkeep, hperm⟩ := keepFirst_visit order way hnodup
    rw [arrangeValue, hkeep]
    refine .map (hperm.nodup_iff.2 hnodup)
      (fun name hname => (hnames name hname).congr fun key _ => hperm.mem_iff.symm) ?_
    rintro ⟨name, w⟩ hw
    obtain ⟨v, place, hv, rfl⟩ :=
      exists_of_mem_arrangeFields ((order.perm way _).mem_iff.1 hw)
    exact ih (name, v) hv place

theorem map_arrange (order : Order) (fields : Settings) :
    Value.map (arrange order fields) = arrangeValue order [] (.map fields) := by
  rw [arrange, arrangeValue]

/-! ### Decoding -/

theorem text?_eq (h : v.Alike v') : text? v = text? v' := by
  cases h <;> rfl

theorem flag?_eq (h : v.Alike v') : flag? v = flag? v' := by
  cases h <;> rfl

theorem optionalFlag?_eq (h : v.Alike v') : optionalFlag? v = optionalFlag? v' := by
  cases h <;> rfl

/-- `find` leads from an unambiguous map to an unambiguous value. -/
theorem unambiguous_find (h : (Value.map fields).Unambiguous) (name : String) :
    (fields.find name).Unambiguous := by
  cases h with
  | plain _ hmap => exact absurd rfl (hmap fields)
  | map hnodup hnames h =>
    rw [find_eq hnodup]
    cases hfound : (fields.spelling? name).bind (fields.lookup ·) with
    | none => exact .plain nofun nofun
    | some v =>
      obtain ⟨key, -, hlookup⟩ := Option.bind_eq_some_iff.1 hfound
      exact h _ ((lookup_eq_some_iff hnodup).1 hlookup)

/-- The fields of alike values: each of the `fieldNames` leads to alike values. -/
def FieldsAlike (fields fields' : Settings) : Prop :=
  ∀ name ∈ fieldNames,
    (fields.find name).Alike (fields'.find name) ∧ (fields.find name).Unambiguous

theorem fields?_rel (h : v.Alike v') (hv : v.Unambiguous) :
    Option.Rel FieldsAlike (fields? v) (fields? v') := by
  have hrefl : ∀ fields : Settings, (Value.map fields).Unambiguous → FieldsAlike fields fields :=
    fun fields hfields name _ => ⟨.refl _, unambiguous_find hfields name⟩
  have hnone : (Value.map []).Unambiguous :=
    .map List.nodup_nil (fun _ _ => .inr fun _ hkey => nomatch hkey) fun _ hf => nomatch hf
  cases h with
  | refl =>
    cases v with
    | map fields => exact .some (hrefl fields hv)
    | null | time => exact .some (hrefl [] hnone)
    | _ => exact .none
  | list => exact .none
  | @map fields fields' nodup nodup' names alike =>
    have hfields : Alike fields fields' := .of_map (.map nodup nodup' names alike) nodup
    refine .some fun name hname => ⟨?_, unambiguous_find hv name⟩
    cases hv with
    | plain _ hmap => exact absurd rfl (hmap fields)
    | map _ hnames _ =>
      exact find_rel (.refl _) nodup nodup' (hnames name hname) fun key _ => hfields.lookup key

theorem outputOfValue?_eq (h : v.Alike v') (hv : v.Unambiguous) :
    ProjectOutput.ofValue? v = ProjectOutput.ofValue? v' := by
  have hfields := fields?_rel h hv
  unfold ProjectOutput.ofValue?
  generalize fields? v = a at hfields
  generalize fields? v' = b at hfields
  cases hfields with
  | none => rfl
  | some hfields =>
    dsimp only [bind, Option.bind]
    rw [text?_eq (hfields "target" (by decide)).1,
      optionalFlag?_eq (hfields "overwrite" (by decide)).1]

theorem inputOfValue?_eq (h : v.Alike v') (hv : v.Unambiguous) :
    ProjectInput.ofValue? v = ProjectInput.ofValue? v' := by
  have hfields := fields?_rel h hv
  unfold ProjectInput.ofValue?
  generalize fields? v = a at hfields
  generalize fields? v' = b at hfields
  cases hfields with
  | none => rfl
  | some hfields =>
    dsimp only [bind, Option.bind]
    rw [text?_eq (hfields "target" (by decide)).1, flag?_eq (hfields "from_url" (by decide)).1]

theorem projectOfValue?_eq (h : v.Alike v') (hv : v.Unambiguous) :
    Project.ofValue? v = Project.ofValue? v' := by
  have hfields := fields?_rel h hv
  unfold Project.ofValue?
  generalize fields? v = a at hfields
  generalize fields? v' = b at hfields
  cases hfields with
  | none => rfl
  | some hfields =>
    obtain ⟨houtput, houtput'⟩ := hfields "output" (by decide)
    obtain ⟨hinput, hinput'⟩ := hfields "input" (by decide)
    dsimp only [bind, Option.bind]
    rw [outputOfValue?_eq houtput houtput', inputOfValue?_eq hinput hinput']

/-! ### Projects by name -/

/-- `ps` and `qs` have distinct names and the same `lookup`. -/
structure SameMap {α : Type} (ps qs : List (String × α)) : Prop where
  nodup : (ps.map (·.1)).Nodup
  nodup' : (qs.map (·.1)).Nodup
  lookup : ∀ name, ps.lookup name = qs.lookup name

theorem SameMap.perm {α : Type} {ps qs : List (String × α)} (h : SameMap ps qs) : ps.Perm qs := by
  rw [List.perm_ext_iff_of_nodup (.of_map _ h.nodup) (.of_map _ h.nodup')]
  rintro ⟨name, a⟩
  rw [← lookup_eq_some_iff h.nodup, ← lookup_eq_some_iff h.nodup', h.lookup]

/-- `mapM` over `fields` fails if `Project.ofValue?` fails on one of them.  Otherwise it keeps the
names, and `lookup` in the result is `lookup` in `fields` and then `Project.ofValue?`. -/
theorem mapM_ofValue? (fields : Settings) :
    ((fields.mapM fun f => do return (f.1, ← Project.ofValue? f.2)) = none ∧
      ∃ f ∈ fields, Project.ofValue? f.2 = none) ∨
    ∃ ps : List (String × Project),
      (fields.mapM fun f => do return (f.1, ← Project.ofValue? f.2)) = some ps ∧
      ps.map (·.1) = fields.map (·.1) ∧
      (∀ name, ps.lookup name = (fields.lookup name).bind Project.ofValue?) ∧
      ∀ f ∈ fields, ∃ project, Project.ofValue? f.2 = some project := by
  induction fields with
  | nil => exact .inr ⟨[], rfl, rfl, fun _ => rfl, nofun⟩
  | cons f rest ih =>
    rw [List.mapM_cons]
    cases hf : Project.ofValue? f.2 with
    | none => exact .inl ⟨rfl, f, List.mem_cons_self, hf⟩
    | some project =>
      rcases ih with ⟨hnone, g, hg, hbad⟩ | ⟨ps, hps, hnames, hlookup, hgood⟩
      · refine .inl ⟨?_, g, List.mem_cons_of_mem _ hg, hbad⟩
        rw [hnone]
        rfl
      · refine .inr ⟨(f.1, project) :: ps, ?_, ?_, fun name => ?_, fun g hg => ?_⟩
        · rw [hps]
          rfl
        · rw [List.map_cons, List.map_cons, hnames]
        · rw [List.lookup_cons, List.lookup_cons, hlookup]
          cases name == f.1 with
          | true => exact hf.symm
          | false => rfl
        · rcases List.mem_cons.1 hg with rfl | hg
          · exact ⟨project, hf⟩
          · exact hgood g hg

/-- Alike fields have the same `Project.ofValue?` under each name. -/
theorem map_ofValue?_lookup (h : Alike fields fields') (hfields : ∀ f ∈ fields, f.2.Unambiguous)
    (name : String) :
    (fields.lookup name).map Project.ofValue? = (fields'.lookup name).map Project.ofValue? := by
  have hrel := h.lookup name
  cases hlookup : fields.lookup name with
  | none =>
    rw [hlookup] at hrel
    generalize fields'.lookup name = b at hrel
    cases hrel
    rfl
  | some v =>
    rw [hlookup] at hrel
    generalize fields'.lookup name = b at hrel
    cases hrel with
    | some halike =>
      have hv := hfields _ ((lookup_eq_some_iff h.nodup).1 hlookup)
      rw [Option.map_some, Option.map_some, projectOfValue?_eq halike hv]

/-- If `fields` and `fields'` have the same `Project.ofValue?` under each name, and it succeeds on
all of `fields'`, it succeeds on all of `fields`. -/
theorem ofValue?_ne_none (hnodup : (fields.map (·.1)).Nodup) (hnodup' : (fields'.map (·.1)).Nodup)
    (hsame : ∀ name,
      (fields.lookup name).map Project.ofValue? = (fields'.lookup name).map Project.ofValue?)
    (hgood : ∀ g ∈ fields', ∃ project, Project.ofValue? g.2 = some project) :
    ∀ f ∈ fields, Project.ofValue? f.2 ≠ none := by
  intro f hf hbad
  have hat := hsame f.1
  rw [(lookup_eq_some_iff hnodup).2 hf, Option.map_some, hbad, eq_comm,
    Option.map_eq_some_iff] at hat
  obtain ⟨w, hw, hbad'⟩ := hat
  obtain ⟨project, hproject⟩ := hgood _ ((lookup_eq_some_iff hnodup').1 hw)
  rw [hbad'] at hproject
  cases hproject

theorem mapM_ofValue?_rel (h : Alike fields fields') (hfields : ∀ f ∈ fields, f.2.Unambiguous) :
    Option.Rel SameMap (fields.mapM fun f => do return (f.1, ← Project.ofValue? f.2))
      (fields'.mapM fun f => do return (f.1, ← Project.ofValue? f.2)) := by
  have hsame := map_ofValue?_lookup h hfields
  -- Each `mapM` fails or gives a list; the two mixed cases cannot be, by `ofValue?_ne_none`.
  rcases mapM_ofValue? fields with ⟨hfs, f, hf, hbad⟩ | ⟨ps, hfs, hnames, hlookup, hgood⟩ <;>
    rcases mapM_ofValue? fields' with ⟨hgs, g, hg, hbad'⟩ | ⟨qs, hgs, hnames', hlookup', hgood'⟩ <;>
    rw [hfs, hgs]
  · exact .none
  · exact absurd hbad (ofValue?_ne_none h.nodup h.nodup' hsame hgood' f hf)
  · exact absurd hbad'
      (ofValue?_ne_none h.nodup' h.nodup (fun name => (hsame name).symm) hgood g hg)
  · refine .some ⟨hnames ▸ h.nodup, hnames' ▸ h.nodup', fun name => ?_⟩
    have hat := hsame name
    rw [hlookup, hlookup']
    cases hl : fields.lookup name <;> cases hl' : fields'.lookup name <;> rw [hl, hl'] at hat
    · cases hat
    · cases hat
    · exact Option.some.inj hat

theorem SameMap.foldl_set {α : Type} {ps qs ps' qs' : List (String × α)} (h : SameMap ps qs)
    (h' : SameMap ps' qs') :
    SameMap (ps'.foldl (fun all p => set all p.1 p.2) ps)
      (qs'.foldl (fun all p => set all p.1 p.2) qs) where
  nodup := nodup_foldl_set h.nodup ps'
  nodup' := nodup_foldl_set h.nodup' qs'
  lookup name := by
    rw [lookup_foldl_set h'.nodup, lookup_foldl_set h'.nodup', h.lookup, h'.lookup]

theorem allOfItems?_rel {items items' : List Value} (hlength : items.length = items'.length)
    (h : ∀ (i : Nat) v v', items[i]? = some v → items'[i]? = some v' →
      Option.Rel SameMap (Project.allOfValue? v) (Project.allOfValue? v')) :
    Option.Rel SameMap (Project.allOfItems? items) (Project.allOfItems? items') := by
  induction items generalizing items' with
  | nil =>
    obtain rfl := List.length_eq_zero_iff.1 hlength.symm
    rw [Project.allOfItems?]
    exact .some ⟨List.nodup_nil, List.nodup_nil, fun _ => rfl⟩
  | cons v rest ih =>
    cases items' with
    | nil => cases hlength
    | cons v' rest' =>
      have hfirst := h 0 v v' rfl rfl
      have hrest := ih (Nat.succ.inj hlength) fun i w w' hw hw' => h (i + 1) w w' hw hw'
      rw [Project.allOfItems?, Project.allOfItems?]
      generalize Project.allOfValue? v = a at hfirst
      generalize Project.allOfValue? v' = b at hfirst
      generalize Project.allOfItems? rest = c at hrest
      generalize Project.allOfItems? rest' = d at hrest
      cases hfirst with
      | none => exact .none
      | some hfirst =>
        cases hrest with
        | none => exact .none
        | some hrest => exact .some (hfirst.foldl_set hrest)

/-- **`Project.allOfValue?` takes alike values to the `SameMap`**, or fails on both. -/
theorem allOfValue?_rel (hv : v.Unambiguous) :
    ∀ v', v.Alike v' → Option.Rel SameMap (Project.allOfValue? v) (Project.allOfValue? v') := by
  induction hv with
  | @plain v hlist hmap =>
    intro v' h
    cases h with
    | refl =>
      cases v with
      | list items => exact absurd rfl (hlist items)
      | map fields => exact absurd rfl (hmap fields)
      | null | time => exact .some ⟨List.nodup_nil, List.nodup_nil, fun _ => rfl⟩
      | _ => exact .none
    | list => exact absurd rfl (hlist _)
    | map => exact absurd rfl (hmap _)
  | @list items hitems ih =>
    intro v' h
    cases h with
    | refl =>
      rw [Project.allOfValue?]
      refine allOfItems?_rel rfl fun i w w' hw hw' => ?_
      obtain rfl := Option.some.inj (hw.symm.trans hw')
      exact ih w (List.mem_of_getElem? hw) w (.refl w)
    | list hlength halike =>
      rw [Project.allOfValue?, Project.allOfValue?]
      exact allOfItems?_rel hlength fun i w w' hw hw' =>
        ih w (List.mem_of_getElem? hw) w' (halike i w w' hw hw')
  | @map fields hnodup hnames hfields ih =>
    intro v' h
    have hcases : ∃ fields', v' = .map fields' := by
      cases h with
      | refl => exact ⟨fields, rfl⟩
      | map => exact ⟨_, rfl⟩
    obtain ⟨fields', rfl⟩ := hcases
    exact mapM_ofValue?_rel (.of_map h hnodup) hfields

end Settings

namespace Config

variable {c c' : Config} {given given' changes : Settings}

/-! ### Configurations -/

theorem lookup_defaults_of_ne {key : String} (h : key ≠ "log") : defaults.lookup key = none := by
  rw [defaults, List.lookup_cons, beq_false_of_ne h]
  rfl

theorem lookup_log_defaults :
    defaults.lookup "log" = some (.map [("level", .text "info"), ("pretty", .bool true)]) :=
  rfl

/-- The defaults have no key but `log`. -/
theorem lookup_merge_defaults {key : String} (hgiven : (given.map (·.1)).Nodup) (h : key ≠ "log") :
    (Settings.merge defaults given).lookup key = given.lookup key := by
  rw [lookup_merge hgiven, lookup_defaults_of_ne h]
  cases given.lookup key with
  | none => rfl
  | some v =>
    have hnone : mergeValue none v = v := by
      cases v <;> rfl
    rw [Option.map_some, hnone]
    rfl

theorem nodup_merge_defaults (given : Settings) :
    ((Settings.merge defaults given).map (·.1)).Nodup :=
  nodup_merge (List.nodup_singleton _)

/-- `withOverrides` changes nothing under `projects`. -/
theorem find_projects_withOverrides (settings changes : Settings) :
    (withOverrides settings changes).find "projects" = settings.find "projects" := by
  unfold withOverrides
  split
  · rfl
  · rw [Settings.merge_cons, Settings.merge,
      Settings.find_set_of_ne (by decide) (by decide +kernel)]

/-- Merging with the defaults keeps the values under `projects` alike and unambiguous. -/
theorem find_projects_merge (h : (Value.map given).Alike (.map given'))
    (hgiven : (Value.map given).Unambiguous) :
    ((Settings.merge defaults given).find "projects").Alike
        ((Settings.merge defaults given').find "projects") ∧
      ((Settings.merge defaults given).find "projects").Unambiguous := by
  cases hgiven with
  | plain _ hmap => exact absurd rfl (hmap given)
  | map hnodup hnames hfields =>
    have halike := Settings.Alike.of_map h hnodup
    have hlog : ∀ key, Spells key "projects" → key ≠ "log" := by
      rintro key hkey rfl
      rcases hkey with heq | hfold
      · exact absurd heq (by decide)
      · exact absurd hfold (by decide +kernel)
    have hdetermines : (Settings.merge defaults given).Determines "projects" := by
      refine (hnames "projects" (by decide)).congr fun key hkey => ?_
      rw [← not_iff_not, ← lookup_eq_none_iff, ← lookup_eq_none_iff,
        lookup_merge_defaults hnodup (hlog key hkey)]
    refine find_rel (R := fun v v' => v.Alike v' ∧ v.Unambiguous) ⟨.refl _, .plain nofun nofun⟩
      (nodup_merge_defaults given) (nodup_merge_defaults given') hdetermines fun key hkey => ?_
    rw [lookup_merge_defaults hnodup (hlog key hkey),
      lookup_merge_defaults halike.nodup' (hlog key hkey)]
    have hrel := halike.lookup key
    cases hlookup : given.lookup key with
    | none =>
      rw [hlookup] at hrel
      generalize given'.lookup key = b at hrel
      cases hrel
      exact .none
    | some v =>
      rw [hlookup] at hrel
      generalize given'.lookup key = b at hrel
      cases hrel with
      | some hv => exact .some ⟨hv, hfields _ ((lookup_eq_some_iff hnodup).1 hlookup)⟩

/-- Log settings that say the same: maps that lead to alike values for the level and for `pretty`,
or values that are no maps. -/
inductive LogAlike : Value → Value → Prop
  | map {fields fields' : Settings} (h : ∀ key ∈ ["level", "pretty"], ∃ v v',
      fields.lookup key = some v ∧ fields'.lookup key = some v' ∧ v.Alike v') :
      LogAlike (.map fields) (.map fields')
  | plain {v v' : Value} (hmap : ∀ fields, v ≠ .map fields) (hmap' : ∀ fields, v' ≠ .map fields)
      (h : fields? v = fields? v') : LogAlike v v'

theorem LogAlike.ofValue?_eq {v v' : Value} (h : LogAlike v v') :
    LogSettings.ofValue? v = LogSettings.ofValue? v' := by
  unfold LogSettings.ofValue?
  cases h with
  | @map fields fields' h =>
    obtain ⟨level, level', hlevel, hlevel', halike⟩ := h "level" (by decide)
    obtain ⟨pretty, pretty', hpretty, hpretty', halike'⟩ := h "pretty" (by decide)
    dsimp only [fields?, bind, Option.bind]
    rw [find_eq_of_lookup hlevel, find_eq_of_lookup hlevel', find_eq_of_lookup hpretty,
      find_eq_of_lookup hpretty', text?_eq halike, flag?_eq halike']
  | plain _ _ h => rw [h]

/-- `merge` with the same `changes` keeps `LogAlike`. -/
theorem LogAlike.merge {fields fields' : Settings} (h : LogAlike (.map fields) (.map fields'))
    (hnodup : (changes.map (·.1)).Nodup) (hplain : ∀ f ∈ changes, ∀ fs, f.2 ≠ .map fs) :
    LogAlike (.map (Settings.merge fields changes)) (.map (Settings.merge fields' changes)) := by
  cases h with
  | plain hmap => exact absurd rfl (hmap fields)
  | map h =>
    refine .map fun key hkey => ?_
    rw [lookup_merge hnodup, lookup_merge hnodup]
    cases hchange : changes.lookup key with
    | none => exact h key hkey
    | some v =>
      have hv : ∀ old, mergeValue old v = v :=
        mergeValue_of_ne_map (hplain _ ((lookup_eq_some_iff hnodup).1 hchange))
      refine ⟨v, v, ?_, ?_, .refl v⟩
      · rw [Option.map_some, hv]
        rfl
      · rw [Option.map_some, hv]
        rfl

/-- `mergeValue` takes alike maps over the `log` of the defaults to values that are `LogAlike`. -/
theorem logAlike_mergeValue {fields fields' : Settings} (h : Settings.Alike fields fields') :
    LogAlike (mergeValue (defaults.lookup "log") (.map fields))
      (mergeValue (defaults.lookup "log") (.map fields')) := by
  rw [lookup_log_defaults, mergeValue, mergeValue]
  refine .map fun key hkey => ?_
  have hrel := h.lookup key
  rw [lookup_merge h.nodup, lookup_merge h.nodup']
  have hdefault : ∃ v, List.lookup key [("level", Value.text "info"), ("pretty", .bool true)] =
      some v ∧ ∀ fields, v ≠ .map fields := by
    rcases List.mem_pair.1 hkey with rfl | rfl
    · exact ⟨_, rfl, fun _ h => by cases h⟩
    · exact ⟨_, rfl, fun _ h => by cases h⟩
  obtain ⟨v, hv, hplain⟩ := hdefault
  -- A default that is no map gives way to anything.
  have hover : ∀ w, mergeValue (some v) w = w := by
    intro w
    cases w with
    | map fields =>
      cases v with
      | map below => exact absurd rfl (hplain below)
      | _ => rfl
    | _ => rfl
  rw [hv]
  generalize fields.lookup key = a at hrel
  generalize fields'.lookup key = b at hrel
  cases hrel with
  | none => exact ⟨v, v, rfl, rfl, .refl v⟩
  | @some w w' hww =>
    rw [Option.map_some, Option.map_some, hover, hover]
    exact ⟨w, w', rfl, rfl, hww⟩

/-- The log settings laid over the defaults have a level and `pretty`, unless they are no map. -/
theorem exists_logAlike (h : (Value.map given).Alike (.map given'))
    (hgiven : (Value.map given).Unambiguous) :
    ∃ v v', (Settings.merge defaults given).lookup "log" = some v ∧
      (Settings.merge defaults given').lookup "log" = some v' ∧ LogAlike v v' := by
  cases hgiven with
  | plain _ hmap => exact absurd rfl (hmap given)
  | map hnodup hnames hfields =>
    have halike := Settings.Alike.of_map h hnodup
    have hrel := halike.lookup "log"
    rw [lookup_merge hnodup, lookup_merge halike.nodup', lookup_log_defaults]
    cases hlookup : given.lookup "log" with
    | none =>
      rw [hlookup] at hrel
      generalize given'.lookup "log" = b at hrel
      cases hrel
      refine ⟨_, _, rfl, rfl, .map fun key hkey => ?_⟩
      rcases List.mem_pair.1 hkey with rfl | rfl
      · exact ⟨_, _, rfl, rfl, .refl _⟩
      · exact ⟨_, _, rfl, rfl, .refl _⟩
    | some w =>
      have hw := hfields _ ((lookup_eq_some_iff hnodup).1 hlookup)
      rw [hlookup] at hrel
      generalize given'.lookup "log" = b at hrel
      cases hrel with
      | @some _ w' hww =>
        refine ⟨_, _, rfl, rfl, ?_⟩
        by_cases hmap : ∃ fields, w = .map fields
        · obtain ⟨fields, rfl⟩ := hmap
          obtain ⟨fields', rfl⟩ : ∃ fields', w' = .map fields' := by
            cases hww with
            | refl => exact ⟨fields, rfl⟩
            | map => exact ⟨_, rfl⟩
          cases hw with
          | plain _ hmap => exact absurd rfl (hmap fields)
          | map hinner _ _ =>
            exact logAlike_mergeValue (.of_map hww hinner)
        · have hne : ∀ fields, w ≠ .map fields := fun fields heq => hmap ⟨fields, heq⟩
          have hne' : ∀ fields, w' ≠ .map fields := by
            rintro fields rfl
            cases hww with
            | refl => exact hne fields rfl
            | map => exact hne _ rfl
          rw [mergeValue_of_ne_map hne, mergeValue_of_ne_map hne']
          refine .plain hne hne' ?_
          cases hww with
          | refl => rfl
          | list => rfl
          | map => exact absurd rfl (hne _)

/-- `withOverrides` merges `changes` into what is under `log`. -/
theorem find_log_withOverrides (settings : Settings) (h : changes ≠ []) :
    (withOverrides settings changes).find "log" =
      mergeValue (settings.lookup "log") (.map changes) := by
  have hchanges : ¬ changes.isEmpty = true := fun hempty => h (List.isEmpty_iff.1 hempty)
  rw [withOverrides, if_neg hchanges, merge_cons, Settings.merge]
  exact find_eq_of_lookup lookup_set_self

theorem logOfValue?_withOverrides (h : (Value.map given).Alike (.map given'))
    (hgiven : (Value.map given).Unambiguous) (hnodup : (changes.map (·.1)).Nodup)
    (hplain : ∀ f ∈ changes, ∀ fs, f.2 ≠ .map fs) :
    LogSettings.ofValue? ((withOverrides (Settings.merge defaults given) changes).find "log") =
      LogSettings.ofValue?
        ((withOverrides (Settings.merge defaults given') changes).find "log") := by
  obtain ⟨v, v', hv, hv', hlog⟩ := exists_logAlike h hgiven
  by_cases hchanges : changes = []
  · subst hchanges
    show LogSettings.ofValue? ((Settings.merge defaults given).find "log") =
      LogSettings.ofValue? ((Settings.merge defaults given').find "log")
    rw [find_eq_of_lookup hv, find_eq_of_lookup hv', hlog.ofValue?_eq]
  · rw [find_log_withOverrides _ hchanges, find_log_withOverrides _ hchanges, hv, hv']
    by_cases hmap : ∃ fields, v = .map fields
    · obtain ⟨fields, rfl⟩ := hmap
      obtain ⟨fields', rfl⟩ : ∃ fields', v' = .map fields' := by
        cases hlog with
        | map => exact ⟨_, rfl⟩
        | plain hmap => exact absurd rfl (hmap fields)
      rw [mergeValue, mergeValue]
      exact (hlog.merge hnodup hplain).ofValue?_eq
    · -- What is no map gives way to the changes.
      cases hlog with
      | map => exact absurd ⟨_, rfl⟩ hmap
      | plain hne hne' _ =>
        have hover : ∀ w : Value, (∀ fields, w ≠ .map fields) →
            mergeValue (some w) (.map changes) = .map changes := by
          intro w hw
          cases w with
          | map fields => exact absurd rfl (hw fields)
          | _ => rfl
        rw [hover v hne, hover v' hne']

/-- `c` and `c'` have the same log settings, and the same projects up to `Perm`. -/
structure Alike (c c' : Config) : Prop where
  log_eq : c.log = c'.log
  projects : c.projects.Perm c'.projects

/-- **`ofSettings?` takes alike settings to alike configurations**, or fails on both. -/
theorem ofSettings?_rel (h : (Value.map given).Alike (.map given'))
    (hgiven : (Value.map given).Unambiguous) (hnodup : (changes.map (·.1)).Nodup)
    (hplain : ∀ f ∈ changes, ∀ fs, f.2 ≠ .map fs) :
    Option.Rel Alike (ofSettings? (withOverrides (Settings.merge defaults given) changes))
      (ofSettings? (withOverrides (Settings.merge defaults given') changes)) := by
  obtain ⟨halike, hunambiguous⟩ := find_projects_merge h hgiven
  have hprojects := allOfValue?_rel hunambiguous _ halike
  unfold ofSettings?
  rw [logOfValue?_withOverrides h hgiven hnodup hplain, find_projects_withOverrides,
    find_projects_withOverrides]
  generalize Project.allOfValue? _ = a at hprojects
  generalize Project.allOfValue? _ = b at hprojects
  cases LogSettings.ofValue? _ with
  | none => exact .none
  | some log =>
    cases hprojects with
    | none => exact .none
    | some hsame => exact .some ⟨rfl, hsame.perm⟩

theorem Alike.normalized (h : c.Alike c') : c.normalized.Alike c'.normalized := by
  dsimp only [Config.normalized]
  rw [h.log_eq]
  exact ⟨rfl, h.projects⟩

/-- Two results that are alike configurations, the same error, or errors of fields that are a
permutation of each other. -/
inductive SameResult : Except ConfigError Config → Except ConfigError Config → Prop
  | ok {c c' : Config} (h : c.Alike c') : SameResult (.ok c) (.ok c')
  | fields {errors errors' : List FieldError} (h : errors.Perm errors') :
      SameResult (.error (.fields errors)) (.error (.fields errors'))
  | error (e : ConfigError) : SameResult (.error e) (.error e)

theorem SameResult.refl (r : Except ConfigError Config) : SameResult r r := by
  cases r with
  | ok c => exact .ok ⟨rfl, .rfl⟩
  | error e => exact .error e

/-- **`validate` accepts both of two alike configurations or neither**, with the same errors of
fields up to `Perm`. -/
theorem sameResult_validate (h : c.Alike c') :
    SameResult (c.validate >>= fun _ => pure c) (c'.validate >>= fun _ => pure c') := by
  have hempty : c.projects.isEmpty = c'.projects.isEmpty := by
    rw [Bool.eq_iff_iff, List.isEmpty_iff, List.isEmpty_iff]
    exact ⟨fun hnil => (hnil ▸ h.projects).nil_eq.symm, fun hnil => (hnil ▸ h.projects).eq_nil⟩
  have herrors : c.fieldErrors.Perm c'.fieldErrors := by
    unfold fieldErrors
    rw [h.log_eq]
    exact ((h.projects.flatMap_right projectBreaches).append_left _).map _
  unfold validate
  rw [hempty]
  split
  · exact .error _
  · cases hc : c.fieldErrors with
    | nil =>
      rw [hc] at herrors
      rw [← herrors.nil_eq]
      exact .ok h
    | cons e rest =>
      cases hc' : c'.fieldErrors with
      | nil =>
        rw [hc, hc'] at herrors
        exact absurd herrors.eq_nil (List.cons_ne_nil e rest)
      | cons e' rest' =>
        rw [hc, hc'] at herrors
        exact .fields herrors

end Config

end SchemaPress
