import Mathlib.Data.List.Induction
import SchemaPress.Proofs.Text.ByteOrder
import SchemaPress.Renderer

/-!
# What a registry knows

A registry is made by calls of `add`, each of which adds a renderer with a new name or leaves the
registry as it is (`run_add`).  So, whatever the calls, its names are different (`Sound`), and it
knows each name by the first renderer that was added with it (`find?_registered`).  A pipeline is
resolved just if its names are known and different (`resolve_eq_ok_iff`), and otherwise refused
because of the first name that is not (`FirstOffence`).
-/

namespace SchemaPress.Registry

variable {r : Registry} {name : String} {names rest seen : List String} {found : List Renderer}
  {e : RegistryError}

/-! ### Known names -/

theorem mem_names_iff : name ∈ r.names ↔ (r.find? name).isSome = true := by
  rw [Registry.names, (List.mergeSort_perm _ _).mem_iff, find?, List.find?_isSome, List.mem_map]
  simp only [beq_iff_eq]

theorem find?_eq_none_iff : r.find? name = none ↔ name ∉ r.names := by
  rw [mem_names_iff, Option.isSome_iff_ne_none, not_not]

theorem name_of_find? {x : Renderer} (h : r.find? name = some x) : x.name = name :=
  beq_iff_eq.1 (List.find?_some h :)

/-! ### Adding renderers -/

theorem run_add_some (r : Registry) (x : Renderer) :
    (add (some x)).run.run r =
      if x.name.isEmpty then (.error .unnamed, r)
      else if (r.find? x.name).isSome then (.error (.duplicate x.name), r)
      else (.ok (), ⟨r.renderers ++ [x]⟩) := by
  rw [add]
  cases x.name.isEmpty with
  | true => rfl
  | false =>
    show StateT.run (ExceptT.run (if (r.find? x.name).isSome = true then _ else _)) r = _
    cases (r.find? x.name).isSome <;> rfl

/-- **`add` appends a renderer with a new name that is not empty, or fails and leaves `r` as it
is.** -/
theorem run_add (r : Registry) (call : Option Renderer) :
    (∃ x, call = some x ∧ x.name ≠ "" ∧ x.name ∉ r.names ∧
      (add call).run.run r = (.ok (), ⟨r.renderers ++ [x]⟩)) ∨
    ∃ e, (∀ x, call = some x → x.name = "" ∨ x.name ∈ r.names) ∧
      (add call).run.run r = (.error e, r) := by
  cases call with
  | none => exact .inr ⟨.noRenderer, fun x h => (by cases h), rfl⟩
  | some x =>
    rw [run_add_some]
    split_ifs with hempty hknown
    · exact .inr ⟨.unnamed, fun y h => .inl (Option.some.inj h ▸ String.isEmpty_iff.1 hempty), rfl⟩
    · exact .inr ⟨.duplicate x.name, fun y h => .inr (Option.some.inj h ▸ mem_names_iff.2 hknown),
        rfl⟩
    · exact .inl ⟨x, rfl, fun h => hempty (String.isEmpty_iff.2 h),
        fun h => hknown (mem_names_iff.1 h), rfl⟩

/-- The names of the renderers are distinct, and none is empty. -/
structure Sound (r : Registry) : Prop where
  named : ∀ x ∈ r.renderers, x.name ≠ ""
  nodup : (r.renderers.map (·.name)).Nodup

theorem Sound.add (h : r.Sound) (call : Option Renderer) :
    ((Registry.add call).run.run r).2.Sound := by
  rcases run_add r call with ⟨x, -, hnamed, hnew, hrun⟩ | ⟨e, -, hrun⟩
  · rw [hrun]
    refine ⟨fun y hy => ?_, ?_⟩
    · rcases List.mem_append.1 hy with hy | hy
      · exact h.named y hy
      · exact List.mem_singleton.1 hy ▸ hnamed
    · rw [Registry.names, (List.mergeSort_perm _ _).mem_iff] at hnew
      show ((r.renderers ++ [x]).map (·.name)).Nodup
      rw [List.map_append, List.map_singleton]
      exact List.nodup_append.2 ⟨h.nodup, List.nodup_singleton _, fun a ha b hb hab =>
        hnew (List.mem_singleton.1 hb ▸ hab ▸ ha)⟩
  · rw [hrun]
    exact h

/-- The empty registry after `add` for each of `calls`, whether it succeeds or not. -/
def registered (calls : List (Option Renderer)) : Registry :=
  calls.foldl (fun r call => ((add call).run.run r).2) {}

theorem registered_concat (calls : List (Option Renderer)) (call : Option Renderer) :
    registered (calls ++ [call]) = ((add call).run.run (registered calls)).2 := by
  rw [registered, List.foldl_append]
  rfl

theorem sound_registered (calls : List (Option Renderer)) : (registered calls).Sound := by
  induction calls using List.reverseRecOn with
  | nil => exact ⟨fun x h => absurd h List.not_mem_nil, List.nodup_nil⟩
  | append_singleton calls call ih =>
    rw [registered_concat]
    exact ih.add call

/-- **`find? name` is the first renderer of that name among `calls`.** -/
theorem find?_registered (calls : List (Option Renderer)) (hname : name ≠ "") :
    (registered calls).find? name = calls.findSome? (Option.filter (·.name == name)) := by
  induction calls using List.reverseRecOn with
  | nil => rfl
  | append_singleton calls call ih =>
    rw [registered_concat, List.findSome?_append, ← ih]
    rcases run_add (registered calls) call with ⟨x, rfl, -, -, hrun⟩ | ⟨e, hwhy, hrun⟩
    · rw [hrun]
      show ((registered calls).renderers ++ [x]).find? (·.name == name) = _
      rw [List.find?_append, List.find?_singleton, List.findSome?_singleton, Option.filter_some]
      rfl
    · rw [hrun]
      -- A call that fails has another name, or one that is known already.
      cases hfind : (registered calls).find? name with
      | some y => rfl
      | none =>
        have hother : call.filter (·.name == name) = none := by
          rw [Option.filter_eq_none_iff]
          intro x hx hxname
          obtain rfl : x.name = name := beq_iff_eq.1 hxname
          rcases hwhy x hx with hempty | hknown
          · exact hname hempty
          · exact find?_eq_none_iff.1 hfind hknown
        rw [List.findSome?_singleton, hother]
        rfl

/-- If `add` succeeds for all of `calls`, the result is the one of the fold. -/
theorem eq_foldl_of_after {calls : List (Option Renderer)} {r' : Registry}
    (h : r.after (calls.forM add) = .ok r') :
    r' = calls.foldl (fun r call => ((add call).run.run r).2) r := by
  induction calls generalizing r with
  | nil => exact (Except.ok.inj h).symm
  | cons call calls ih =>
    -- The calls that remain start from what this one leaves behind, unless it fails.
    have hrun : (List.forM (call :: calls) add).run.run r =
        (ExceptT.bindCont (fun _ => calls.forM add) ((add call).run.run r).1).run
          ((add call).run.run r).2 := rfl
    rw [after, hrun] at h
    rcases run_add r call with ⟨x, -, -, -, hcall⟩ | ⟨e, -, hcall⟩
    · rw [hcall] at h
      rw [List.foldl_cons, hcall]
      exact ih h
    · rw [hcall] at h
      cases h

/-! ### Resolving a pipeline -/

theorem resolveFrom_of_mem (h : name ∈ seen) :
    r.resolveFrom seen (name :: rest) = .error (.repeated name) := by
  rw [resolveFrom, if_pos (List.contains_iff_mem.2 h)]

theorem resolveFrom_of_unknown (h : name ∉ seen) (hname : r.find? name = none) :
    r.resolveFrom seen (name :: rest) = .error (.unknown name r.names) := by
  rw [resolveFrom, if_neg (fun hmem => h (List.contains_iff_mem.1 hmem)), Registry.get, hname]
  rfl

theorem resolveFrom_of_known (h : name ∉ seen) {x : Renderer} (hname : r.find? name = some x) :
    r.resolveFrom seen (name :: rest) = (r.resolveFrom (name :: seen) rest).map (x :: ·) := by
  rw [resolveFrom, if_neg (fun hmem => h (List.contains_iff_mem.1 hmem)), Registry.get, hname]
  show (r.resolveFrom (name :: seen) rest >>= fun more => .ok (x :: more)) = _
  cases r.resolveFrom (name :: seen) rest <;> rfl

theorem resolveFrom_eq_ok_iff :
    r.resolveFrom seen names = .ok found ↔ (names.Nodup ∧ ∀ name ∈ names, name ∉ seen) ∧
      List.Forall₂ (fun name x => r.find? name = some x) names found := by
  induction names generalizing seen found with
  | nil =>
    rw [resolveFrom, List.forall₂_nil_left_iff, Except.ok.injEq, eq_comm]
    simp
  | cons name rest ih =>
    rw [List.nodup_cons, List.forall_mem_cons]
    by_cases hseen : name ∈ seen
    · rw [resolveFrom_of_mem hseen]
      exact iff_of_false (fun h => by cases h) fun h => h.1.2.1 hseen
    cases hfind : r.find? name with
    | none =>
      rw [resolveFrom_of_unknown hseen hfind]
      refine iff_of_false (fun h => by cases h) ?_
      rintro ⟨-, _ | ⟨hname, -⟩⟩
      rw [hfind] at hname
      cases hname
    | some x =>
      have hmap : (r.resolveFrom (name :: seen) rest).map (x :: ·) = .ok found ↔
          ∃ more, r.resolveFrom (name :: seen) rest = .ok more ∧ x :: more = found := by
        cases r.resolveFrom (name :: seen) rest <;> simp [Except.map]
      -- A name that comes later is new if it is neither this one nor an earlier one.
      have hnew : (∀ n ∈ rest, n ∉ name :: seen) ↔ name ∉ rest ∧ ∀ n ∈ rest, n ∉ seen := by
        simp only [List.mem_cons, not_or]
        exact ⟨fun h => ⟨fun hmem => (h name hmem).1 rfl, fun n hn => (h n hn).2⟩,
          fun h n hn => ⟨fun heq => h.1 (heq ▸ hn), h.2 n hn⟩⟩
      rw [resolveFrom_of_known hseen hfind, hmap]
      simp only [ih, hnew]
      constructor
      · rintro ⟨more, ⟨⟨hnodup, hname, hrest⟩, hmore⟩, rfl⟩
        exact ⟨⟨⟨hname, hnodup⟩, hseen, hrest⟩, .cons hfind hmore⟩
      · rintro ⟨⟨⟨hname, hnodup⟩, -, hrest⟩, hfound⟩
        cases hfound with
        | @cons _ y _ more hy hmore =>
          obtain rfl : x = y := Option.some.inj (hfind.symm.trans hy)
          exact ⟨more, ⟨⟨hnodup, hname, hrest⟩, hmore⟩, rfl⟩

/-- **`resolve names` succeeds** if and only if `names` is not empty, has no name twice, and each
has a renderer by `find?`; these are the result. -/
theorem resolve_eq_ok_iff :
    r.resolve names = .ok found ↔ names ≠ [] ∧ names.Nodup ∧
      List.Forall₂ (fun name x => r.find? name = some x) names found := by
  rw [resolve]
  split_ifs with hempty
  · have hnil : names = [] := List.isEmpty_iff.1 hempty
    simp [hnil]
  · rw [resolveFrom_eq_ok_iff]
    have hne : names ≠ [] := fun h => hempty (List.isEmpty_iff.2 h)
    simp [hne]

theorem forall₂_of_resolve (h : r.resolve names = .ok found) :
    List.Forall₂ (fun name x => r.find? name = some x) names found :=
  (resolve_eq_ok_iff.1 h).2.2

theorem mem_of_resolve (h : r.resolve names = .ok found) : ∀ x ∈ found, x ∈ r.renderers := by
  intro x hx
  obtain ⟨i, hi⟩ := List.mem_iff_getElem?.1 hx
  obtain ⟨hlt, rfl⟩ := List.getElem?_eq_some_iff.1 hi
  have hfound := forall₂_of_resolve h
  have hname := (List.forall₂_iff_get.1 hfound).2 i (hfound.length_eq ▸ hlt) hlt
  exact List.mem_of_find?_eq_some hname

/-- Each of `names` has a renderer if and only if there is a list of them all. -/
theorem exists_forall₂_iff :
    (∃ found, List.Forall₂ (fun name x => r.find? name = some x) names found) ↔
      ∀ name ∈ names, ∃ x, r.find? name = some x := by
  induction names with
  | nil => simp
  | cons name rest ih =>
    rw [List.forall_mem_cons, ← ih]
    constructor
    · rintro ⟨found, hfound⟩
      cases hfound with
      | cons hx hmore => exact ⟨⟨_, hx⟩, _, hmore⟩
    · rintro ⟨⟨x, hx⟩, more, hmore⟩
      exact ⟨x :: more, .cons hx hmore⟩

/-- `name` is the first after `done ++ before` that is repeated or unknown, and `e` says which. -/
structure FirstOffence (r : Registry) (done before : List String) (name : String)
    (e : RegistryError) : Prop where
  /-- No earlier name is repeated or unknown. -/
  clean : ∀ b n a, before = b ++ n :: a → n ∉ done ++ b ∧ n ∈ r.names
  /-- `name` is repeated, or it is unknown and not repeated. -/
  offence : name ∈ done ++ before ∧ e = .repeated name ∨
    name ∉ done ++ before ∧ name ∉ r.names ∧ e = .unknown name r.names

theorem firstOffence_cons_iff {done before : List String} {n : String} :
    FirstOffence r done (n :: before) name e ↔
      (n ∉ done ∧ n ∈ r.names) ∧ FirstOffence r (done ++ [n]) before name e := by
  have hdone (b : List String) : done ++ n :: b = done ++ [n] ++ b := List.append_cons done n b
  constructor
  · rintro ⟨hclean, hoffence⟩
    have hn := hclean [] n before rfl
    rw [List.append_nil] at hn
    rw [hdone] at hoffence
    refine ⟨hn, ⟨fun b m a hsplit => ?_, hoffence⟩⟩
    rw [← hdone]
    exact hclean (n :: b) m a (by rw [hsplit, List.cons_append])
  · rintro ⟨hn, hclean, hoffence⟩
    rw [← hdone] at hoffence
    refine ⟨fun b m a hsplit => ?_, hoffence⟩
    cases b with
    | nil =>
      obtain ⟨rfl, -⟩ := List.cons.inj hsplit
      rwa [List.append_nil]
    | cons first b =>
      obtain ⟨rfl, hrest⟩ := List.cons.inj hsplit
      rw [hdone]
      exact hclean b m a hrest

theorem resolveFrom_eq_error_iff {done : List String} (hdone : ∀ n, n ∈ seen ↔ n ∈ done) :
    r.resolveFrom seen names = .error e ↔
      ∃ before name after, names = before ++ name :: after ∧ FirstOffence r done before name e := by
  induction names generalizing seen done with
  | nil =>
    rw [resolveFrom]
    constructor
    · intro h
      cases h
    · rintro ⟨before, name, after, h, -⟩
      cases before <;> cases h
  | cons name rest ih =>
    -- Either the first name is wrong, or it is one more of those that came before.
    have hsplit : (∃ before n after, name :: rest = before ++ n :: after ∧
          FirstOffence r done before n e) ↔
        FirstOffence r done [] name e ∨ (name ∉ done ∧ name ∈ r.names) ∧
          ∃ before n after, rest = before ++ n :: after ∧
            FirstOffence r (done ++ [name]) before n e := by
      constructor
      · rintro ⟨before, n, after, h, hfirst⟩
        cases before with
        | nil =>
          obtain ⟨rfl, -⟩ := List.cons.inj h
          exact .inl hfirst
        | cons b before =>
          obtain ⟨rfl, hrest⟩ := List.cons.inj h
          obtain ⟨hname, hfirst⟩ := firstOffence_cons_iff.1 hfirst
          exact .inr ⟨hname, before, n, after, hrest, hfirst⟩
      · rintro (hfirst | ⟨hname, before, n, after, hrest, hfirst⟩)
        · exact ⟨[], name, rest, rfl, hfirst⟩
        · exact ⟨name :: before, n, after, by rw [hrest, List.cons_append],
            firstOffence_cons_iff.2 ⟨hname, hfirst⟩⟩
    have hhere : FirstOffence r done [] name e ↔ name ∈ done ∧ e = .repeated name ∨
        name ∉ done ∧ name ∉ r.names ∧ e = .unknown name r.names := by
      refine ⟨fun h => by simpa using h.offence, fun h => ⟨fun b n a hb => ?_, by simpa using h⟩⟩
      cases b <;> cases hb
    rw [hsplit, hhere]
    by_cases hseen : name ∈ seen
    · rw [resolveFrom_of_mem hseen]
      have hmem := (hdone name).1 hseen
      simp [hmem, eq_comm]
    have hmem : name ∉ done := fun h => hseen ((hdone name).2 h)
    cases hfind : r.find? name with
    | none =>
      rw [resolveFrom_of_unknown hseen hfind]
      have hname := find?_eq_none_iff.1 hfind
      simp [hmem, hname, eq_comm]
    | some x =>
      have hname : name ∈ r.names := mem_names_iff.2 (by rw [hfind]; rfl)
      have hdone' : ∀ n, n ∈ name :: seen ↔ n ∈ done ++ [name] := by
        intro n
        rw [List.mem_cons, List.mem_append, List.mem_singleton, hdone, or_comm]
      have hmap : (r.resolveFrom (name :: seen) rest).map (x :: ·) = .error e ↔
          r.resolveFrom (name :: seen) rest = .error e := by
        cases r.resolveFrom (name :: seen) rest <;> simp [Except.map]
      rw [resolveFrom_of_known hseen hfind, hmap, ih hdone']
      simp [hmem, hname]

/-- **`resolve names` fails** if and only if `names` is empty or has a `FirstOffence`, which gives
the error. -/
theorem resolve_eq_error_iff :
    r.resolve names = .error e ↔ names = [] ∧ e = .emptyPipeline ∨
      ∃ before name after, names = before ++ name :: after ∧ FirstOffence r [] before name e := by
  rw [resolve]
  split_ifs with hempty
  · have hnil : names = [] := List.isEmpty_iff.1 hempty
    simp [hnil, eq_comm]
  · have hne : names ≠ [] := fun h => hempty (List.isEmpty_iff.2 h)
    rw [resolveFrom_eq_error_iff fun n => Iff.rfl]
    simp [hne]

/-! ### Laws -/

/-- The laws of the registry `r` after `add` for each of `calls`. -/
structure Laws (calls : List (Option Renderer)) (r : Registry) : Prop where
  /-- `find? name` is the first renderer of that name among `calls`, and none for the empty name. -/
  find?_eq_some_iff : ∀ name x, r.find? name = some x ↔ name ≠ "" ∧ x.name = name ∧
    ∃ before after, calls = before ++ some x :: after ∧ ∀ y, some y ∈ before → y.name ≠ name
  /-- A further `add` succeeds if and only if its renderer has a new name that is not empty. -/
  add_eq_ok_iff : ∀ call, ((add call).run.run r).1 = .ok () ↔
    ∃ x, call = some x ∧ x.name ≠ "" ∧ x.name ∉ r.names
  /-- If it fails, it leaves `r` as it is. -/
  add_of_error : ∀ call e r', (add call).run.run r = (.error e, r') → r' = r
  /-- `names` are the names that `find?` knows, strictly increasing in the order of their bytes. -/
  mem_names_iff : ∀ name, name ∈ r.names ↔ ∃ x, r.find? name = some x
  names_order : r.names.Pairwise BytesBefore
  /-- `resolve names` succeeds if and only if `names` is not empty, has no name twice and none that
  is unknown. -/
  resolves_iff : ∀ names, (∃ found, r.resolve names = .ok found) ↔
    names ≠ [] ∧ names.Nodup ∧ ∀ name ∈ names, name ∈ r.names
  /-- The result has the renderer of each name, in order. -/
  resolve_found : ∀ names found, r.resolve names = .ok found →
    names.map r.find? = found.map some ∧ found.map (·.name) = names
  /-- The error is `emptyPipeline` or that of the `FirstOffence`. -/
  resolve_error_iff : ∀ names e, r.resolve names = .error e ↔
    names = [] ∧ e = .emptyPipeline ∨
      ∃ before name after, names = before ++ name :: after ∧ FirstOffence r [] before name e

theorem find?_registered_eq_some_iff (calls : List (Option Renderer)) (name : String)
    (x : Renderer) :
    (registered calls).find? name = some x ↔ name ≠ "" ∧ x.name = name ∧
      ∃ before after, calls = before ++ some x :: after ∧
        ∀ y, some y ∈ before → y.name ≠ name := by
  by_cases hname : name = ""
  · -- A renderer without a name is never added.
    refine iff_of_false (fun hx => ?_) fun h => h.1 hname
    have hmem : x ∈ (registered calls).renderers := List.mem_of_find?_eq_some hx
    exact (sound_registered calls).named x hmem ((name_of_find? hx).trans hname)
  · have hfilter (call : Option Renderer) (y : Renderer) :
        call.filter (·.name == name) = some y ↔ call = some y ∧ y.name = name := by
      rw [Option.filter_eq_some_iff, beq_iff_eq]
    rw [find?_registered calls hname, List.findSome?_eq_some_iff]
    constructor
    · rintro ⟨before, call, after, hcalls, hcall, hbefore⟩
      obtain ⟨rfl, hx⟩ := (hfilter call x).1 hcall
      refine ⟨hname, hx, before, after, hcalls, fun y hy hyname => ?_⟩
      have hnone := hbefore _ hy
      rw [(hfilter _ y).2 ⟨rfl, hyname⟩] at hnone
      cases hnone
    · rintro ⟨-, hx, before, after, hcalls, hbefore⟩
      refine ⟨before, some x, after, hcalls, (hfilter _ x).2 ⟨rfl, hx⟩, fun call hcall => ?_⟩
      rw [Option.eq_none_iff_forall_ne_some]
      intro y hy
      obtain ⟨rfl, hyname⟩ := (hfilter call y).1 hy
      exact hbefore y hcall hyname

/-- **The laws of registries** hold for `registered calls`, which is also `ofList calls` if that
succeeds. -/
theorem laws_registered (calls : List (Option Renderer)) :
    Laws calls (registered calls) ∧ ∀ r, ofList calls = .ok r → r = registered calls := by
  refine ⟨?_, fun r h => eq_foldl_of_after h⟩
  have hsound := sound_registered calls
  have hfound := find?_registered_eq_some_iff calls
  generalize registered calls = r at hsound hfound
  exact {
    find?_eq_some_iff := hfound
    add_eq_ok_iff := fun call => by
      rcases run_add r call with ⟨x, hcall, hnamed, hnew, hrun⟩ | ⟨e, hwhy, hrun⟩
      · rw [hrun]
        exact iff_of_true rfl ⟨x, hcall, hnamed, hnew⟩
      · rw [hrun]
        refine iff_of_false (fun h => by cases h) ?_
        rintro ⟨x, hcall, hnamed, hnew⟩
        exact (hwhy x hcall).elim hnamed hnew
    add_of_error := fun call e r' h => by
      rcases run_add r call with ⟨x, -, -, -, hrun⟩ | ⟨e', -, hrun⟩
      · rw [hrun] at h
        cases h
      · rw [hrun] at h
        exact (Prod.mk.inj h).2.symm
    mem_names_iff := fun name => by rw [mem_names_iff, Option.isSome_iff_exists]
    names_order := (Text.pairwise_mergeSort hsound.nodup).imp bytesBefore_of_lt
    resolves_iff := fun names => by
      simp only [resolve_eq_ok_iff, exists_and_left, exists_forall₂_iff, Registry.mem_names_iff,
        Option.isSome_iff_exists]
    resolve_found := fun names found h => by
      have hforall := forall₂_of_resolve h
      have hfinds : List.Forall₂ (· = ·) (names.map r.find?) (found.map some) := by
        rwa [List.forall₂_map_left_iff, List.forall₂_map_right_iff]
      have hnames : List.Forall₂ (· = ·) names (found.map (·.name)) := by
        rw [List.forall₂_map_right_iff]
        exact hforall.imp fun _ _ hx => (name_of_find? hx).symm
      rw [List.forall₂_eq_eq_eq] at hfinds hnames
      exact ⟨hfinds, hnames.symm⟩
    resolve_error_iff := fun names e => resolve_eq_error_iff }

end SchemaPress.Registry
