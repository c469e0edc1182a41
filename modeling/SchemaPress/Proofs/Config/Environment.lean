import Mathlib.Data.List.TakeWhile
import SchemaPress.Proofs.Config.Order

/-!
# What an environment can change

An entry of an environment counts if it is an assignment to a variable with the right start
(`Assigns`), and it makes a setting if its path is that of the level, or that of `pretty` with a
truth value.  Environments that make the same settings in the same order lead to the same result,
and all that lead to a configuration lead to the same projects; of the assignments that make a log
setting the last one decides (`ofBytes_environment`).  An entry that has the start and no equals
sign is an exception: it makes every environment fail that it is in (`Incomplete`).
-/

namespace SchemaPress

namespace Environment

variable {entry name value : String} {environment : List String}

/-! ### Entries -/

/-- `entry` is `start ++ name ++ "=" ++ value`, and `name` has no `=`. -/
def Assigns (entry name value : String) : Prop :=
  entry = start ++ name ++ "=" ++ value ∧ '=' ∉ name.toList

/-- `entry` begins with `start` and has no `=`. -/
def Incomplete (entry : String) : Prop :=
  start.toList <+: entry.toList ∧ '=' ∉ entry.toList

instance (entry : String) : Decidable (Incomplete entry) :=
  inferInstanceAs (Decidable (_ ∧ _))

/-- The name and the value of `entry`, if it begins with `start` and has a `=`. -/
def assigned? (entry : String) : Option (String × String) :=
  match assignment? entry with
  | .ok found => found
  | .error _ => none

/-- All that `assigned?` makes of the entries, in their order. -/
def assignments (environment : List String) : List (String × String) :=
  environment.filterMap assigned?

theorem equals_notMem_start : '=' ∉ start.toList := by
  decide

theorem assignment?_of_not_start (h : ¬ start.toList <+: entry.toList) :
    assignment? entry = .ok none := by
  have hstart : start.toList.isPrefixOf entry.toList = false := by
    rw [Bool.eq_false_iff]
    exact fun hprefix => h (List.isPrefixOf_iff_prefix.1 hprefix)
  exact if_pos (by rw [hstart]; rfl)

theorem assignment?_of_incomplete (h : Incomplete entry) :
    assignment? entry = .error (.noValue entry) := by
  have hstart : ¬ (!start.toList.isPrefixOf entry.toList) = true := by
    rw [List.isPrefixOf_iff_prefix.2 h.1]
    decide
  have hnone : entry.toList.dropWhile (· != '=') = [] := by
    rw [List.dropWhile_eq_nil_iff]
    intro c hc
    exact bne_iff_ne.2 (ne_of_mem_of_not_mem hc h.2)
  unfold assignment?
  rw [if_neg hstart]
  dsimp only
  rw [hnone]

theorem assignment?_of_assigns (h : Assigns entry name value) :
    assignment? entry = .ok (some (name, value)) := by
  obtain ⟨rfl, hname⟩ := h
  have hentry : (start ++ name ++ "=" ++ value).toList =
      (start.toList ++ name.toList) ++ '=' :: value.toList := by
    simp
  have hstart : ¬ (!start.toList.isPrefixOf (start ++ name ++ "=" ++ value).toList) = true := by
    rw [hentry, List.append_assoc, List.isPrefixOf_iff_prefix.2 (List.prefix_append _ _)]
    decide
  have hfront : ∀ c ∈ start.toList ++ name.toList, (c != '=') = true := by
    intro c hc
    rw [bne_iff_ne]
    rintro rfl
    exact (List.mem_append.1 hc).elim equals_notMem_start hname
  have htake : ((start ++ name ++ "=" ++ value).toList.takeWhile (· != '=')).drop start.length =
      name.toList := by
    rw [hentry, List.takeWhile_append_of_pos hfront, List.takeWhile_cons_of_neg (by decide),
      List.append_nil, ← start.length_toList, List.drop_left]
  have hdrop : (start ++ name ++ "=" ++ value).toList.dropWhile (· != '=') =
      '=' :: value.toList := by
    rw [hentry, List.dropWhile_append_of_pos hfront, List.dropWhile_cons_of_neg (by decide)]
  unfold assignment?
  rw [if_neg hstart]
  dsimp only
  rw [htake, hdrop]
  dsimp only
  rw [String.ofList_toList, String.ofList_toList]

/-- An entry that begins with `start` assigns a value or is `Incomplete`. -/
theorem assigns_or_incomplete (h : start.toList <+: entry.toList) :
    (∃ name value, Assigns entry name value) ∨ Incomplete entry := by
  by_cases hequals : '=' ∈ entry.toList
  · obtain ⟨front, value, hcut, hfront⟩ := List.eq_append_cons_of_mem hequals
    -- the first equals sign stands behind the start
    have hstart : start.toList <+: front := by
      have hmark : front ++ ['='] <+: entry.toList := ⟨value, by rw [hcut]; simp⟩
      rcases List.prefix_or_prefix_of_prefix h hmark with hshort | hlong
      · rcases List.prefix_concat_iff.1 hshort with heq | hprefix
        · exact absurd (heq ▸ List.mem_append_right _ (List.mem_singleton_self _))
            equals_notMem_start
        · exact hprefix
      · exact absurd (hlong.subset (List.mem_append_right _ (List.mem_singleton_self _)))
          equals_notMem_start
    obtain ⟨name, rfl⟩ := hstart
    refine .inl ⟨String.ofList name, String.ofList value, ?_, ?_⟩
    · rw [← String.toList_inj, hcut]
      simp
    · rw [String.toList_ofList]
      exact fun hmem => hfront (List.mem_append_right _ hmem)
  · exact .inr ⟨h, hequals⟩

/-- `assigned?` computes `Assigns`. -/
theorem assigned?_eq_some_iff :
    assigned? entry = some (name, value) ↔ Assigns entry name value := by
  constructor
  · intro hsome
    unfold assigned? at hsome
    by_cases hstart : start.toList <+: entry.toList
    · rcases assigns_or_incomplete hstart with ⟨name', value', hassigns⟩ | hincomplete
      · rw [assignment?_of_assigns hassigns] at hsome
        cases hsome
        exact hassigns
      · rw [assignment?_of_incomplete hincomplete] at hsome
        cases hsome
    · rw [assignment?_of_not_start hstart] at hsome
      cases hsome
  · intro hassigns
    unfold assigned?
    rw [assignment?_of_assigns hassigns]

theorem assignment?_of_complete (h : ¬ Incomplete entry) :
    assignment? entry = .ok (assigned? entry) := by
  unfold assigned?
  by_cases hstart : start.toList <+: entry.toList
  · obtain ⟨name, value, hassigns⟩ := (assigns_or_incomplete hstart).resolve_right h
    rw [assignment?_of_assigns hassigns]
  · rw [assignment?_of_not_start hstart]

theorem assignments_append (h : Assigns entry name value) (before after : List String) :
    assignments (before ++ entry :: after) =
      assignments before ++ (name, value) :: assignments after := by
  unfold assignments
  rw [List.filterMap_append, List.filterMap_cons_some (assigned?_eq_some_iff.2 h)]

theorem exists_of_mem_assignments {a : String × String} (h : a ∈ assignments environment) :
    ∃ entry ∈ environment, Assigns entry a.1 a.2 := by
  obtain ⟨entry, hentry, ha⟩ := List.mem_filterMap.1 h
  exact ⟨entry, hentry, assigned?_eq_some_iff.1 ha⟩

/-! ### Settings -/

/-- The settings that `setting?` makes of the assignments, in their order. -/
def made (environment : List String) : Settings :=
  (assignments environment).filterMap setting?

/-- `settings`, set one after the other. -/
def lastOf (settings : Settings) : Settings :=
  settings.foldl (fun all s => Settings.set all s.1 s.2) []

theorem mapM_assignment? (h : ∀ entry ∈ environment, ¬ Incomplete entry) :
    environment.mapM assignment? = .ok (environment.map assigned?) := by
  induction environment with
  | nil => rfl
  | cons entry rest ih =>
    rw [List.mapM_cons, assignment?_of_complete (h entry List.mem_cons_self),
      ih fun e he => h e (List.mem_cons_of_mem _ he)]
    rfl

theorem overrides_of_complete (h : ∀ entry ∈ environment, ¬ Incomplete entry) :
    overrides environment = .ok (lastOf (made environment)) := by
  have hassigned : (environment.map assigned?).filterMap id = assignments environment := by
    rw [List.filterMap_map]
    rfl
  unfold overrides
  rw [mapM_assignment? h, made, ← hassigned]
  rfl

/-- `overrides` fails with the first incomplete entry. -/
theorem overrides_of_incomplete {before : List String} (hbefore : ∀ e ∈ before, ¬ Incomplete e)
    (h : Incomplete entry) (after : List String) :
    overrides (before ++ entry :: after) = .error (.noValue entry) := by
  unfold overrides
  rw [List.mapM_append, mapM_assignment? hbefore, List.mapM_cons, assignment?_of_incomplete h]
  rfl

theorem complete_of_overrides {changes : Settings} (h : overrides environment = .ok changes) :
    ∀ entry ∈ environment, ¬ Incomplete entry := by
  intro entry hentry hincomplete
  have hsome : (environment.find? fun e => decide (Incomplete e)).isSome = true :=
    List.find?_isSome.2 ⟨entry, hentry, decide_eq_true hincomplete⟩
  -- the first incomplete entry would have been an error
  obtain ⟨first, hfirst⟩ := Option.isSome_iff_exists.1 hsome
  obtain ⟨hfound, before, after, rfl, hbefore⟩ := List.find?_eq_some_iff_append.1 hfirst
  have hcomplete : ∀ e ∈ before, ¬ Incomplete e := by
    intro e he
    simpa using hbefore e he
  rw [overrides_of_incomplete hcomplete (of_decide_eq_true hfound)] at h
  cases h

theorem mem_foldl_set_iff {settings after : Settings} {key : String} {w : Value}
    (h : ∀ s ∈ after, s.1 ≠ key) :
    (key, w) ∈ after.foldl (fun all s => Settings.set all s.1 s.2) settings ↔
      (key, w) ∈ settings := by
  induction after generalizing settings with
  | nil => rfl
  | cons s rest ih =>
    have hne : key ≠ s.1 := (h s List.mem_cons_self).symm
    rw [List.foldl_cons, ih fun t ht => h t (List.mem_cons_of_mem _ ht), Settings.mem_set_iff]
    constructor
    · rintro (hsame | ⟨hmem, -⟩)
      · exact absurd (congrArg Prod.fst hsame) hne
      · exact hmem
    · exact fun hmem => .inr ⟨hmem, hne⟩

/-- **Of several settings of `key`, the last one is in `lastOf`.** -/
theorem mem_lastOf_iff {before after : Settings} {key : String} {v w : Value}
    (h : ∀ s ∈ after, s.1 ≠ key) : (key, w) ∈ lastOf (before ++ (key, v) :: after) ↔ w = v := by
  unfold lastOf
  rw [List.foldl_append, List.foldl_cons, mem_foldl_set_iff h, Settings.mem_set_iff]
  simp

theorem nodup_lastOf (settings : Settings) : ((lastOf settings).map (·.1)).Nodup := by
  refine Settings.nodup_foldl_set ?_ settings
  exact List.nodup_nil

theorem eq_lastOf_of_overrides {changes : Settings} (h : overrides environment = .ok changes) :
    lastOf (made environment) = changes := by
  rw [overrides_of_complete (complete_of_overrides h)] at h
  exact Except.ok.inj h

theorem mem_of_mem_lastOf {settings : Settings} {s : String × Value} (h : s ∈ lastOf settings) :
    s ∈ settings := by
  have hfold : ∀ {all : Settings}, s ∈ settings.foldl (fun all s => Settings.set all s.1 s.2) all →
      s ∈ all ∨ s ∈ settings := by
    clear h
    induction settings with
    | nil => exact .inl
    | cons first rest ih =>
      intro all h
      rcases ih h with hset | hrest
      · rcases Settings.mem_set_iff.1 hset with rfl | ⟨hall, -⟩
        · exact .inr List.mem_cons_self
        · exact .inl hall
      · exact .inr (List.mem_cons_of_mem _ hrest)
  exact (hfold h).resolve_left List.not_mem_nil

/-- The two settings there are: `log.level` takes any value, `log.pretty` takes a truth value. -/
theorem setting?_cases {a : String × String} {s : String × Value} (h : setting? a = some s) :
    (path a.1 = "log.level" ∧ s = ("level", .text a.2)) ∨
      (path a.1 = "log.pretty" ∧
        ∃ b, truth? (Text.trim a.2) = some b ∧ s = ("pretty", .bool b)) := by
  unfold setting? at h
  split at h
  · rename_i hpath
    cases h
    exact .inl ⟨hpath, rfl⟩
  · rename_i hpath
    obtain ⟨b, hb, rfl⟩ := Option.map_eq_some_iff.1 h
    exact .inr ⟨hpath, b, hb, rfl⟩
  · cases h

/-- No value in `lastOf (made environment)` is a map. -/
theorem ne_map_of_mem_lastOf {s : String × Value} (h : s ∈ lastOf (made environment)) :
    ∀ fields, s.2 ≠ .map fields := by
  obtain ⟨a, -, ha⟩ := List.mem_filterMap.1 (mem_of_mem_lastOf h)
  rcases setting?_cases ha with ⟨-, rfl⟩ | ⟨-, b, -, rfl⟩
  · nofun
  · nofun

/-- `made` of an environment whose assignments are cut at one that makes the setting `s`. -/
theorem made_eq_append {before after : List (String × String)} {a : String × String}
    {s : String × Value} (h : assignments environment = before ++ a :: after)
    (hs : setting? a = some s) :
    made environment = before.filterMap setting? ++ s :: after.filterMap setting? := by
  rw [made, h, List.filterMap_append, List.filterMap_cons_some hs]

end Environment

namespace Config

open Environment

variable {raw : ByteArray} {environment environment' : List String} {c c' : Config}
  {order order' : Settings.Order}

/-! ### Configurations -/

theorem level_normalized (c : Config) :
    c.normalized.log.level = Text.lower (Text.trim c.log.level) :=
  rfl

theorem pretty_normalized (c : Config) : c.normalized.log.pretty = c.log.pretty := by
  dsimp only [normalized]

theorem projects_normalized (c : Config) : c.normalized.projects = c.projects := by
  dsimp only [normalized]

theorem assemble_of_ofBytes (h : ofBytes raw environment order = .ok c) :
    assemble raw environment order = .ok c := by
  unfold ofBytes at h
  cases hassemble : assemble raw environment order with
  | error e =>
    rw [hassemble] at h
    cases h
  | ok config =>
    rw [hassemble] at h
    dsimp only [bind, Except.bind] at h
    cases hvalid : config.validate with
    | error e =>
      rw [hvalid] at h
      cases h
    | ok _ =>
      rw [hvalid] at h
      exact h

/-- What `ofBytes` has put together if it succeeds: `parse?`, `overrides` and `ofSettings?`. -/
theorem exists_of_ofBytes (h : ofBytes raw environment order = .ok c) :
    ∃ given changes config, Settings.parse? raw = some given ∧
      overrides environment = .ok changes ∧
      ofSettings? (withOverrides (Settings.merge defaults (Settings.arrange order given)) changes) =
        some config ∧
      c = config.normalized := by
  have hassemble := assemble_of_ofBytes h
  unfold assemble at hassemble
  cases hgiven : Settings.parse? raw with
  | none =>
    rw [hgiven] at hassemble
    cases hassemble
  | some given =>
    cases hchanges : overrides environment with
    | error e =>
      rw [hgiven, hchanges] at hassemble
      cases hassemble
    | ok changes =>
      rw [hgiven, hchanges] at hassemble
      dsimp only [bind, Except.bind] at hassemble
      cases hfit : ofSettings? (withOverrides
          (Settings.merge defaults (Settings.arrange order given))
          changes) with
      | none =>
        rw [hfit] at hassemble
        cases hassemble
      | some config =>
        rw [hfit] at hassemble
        exact ⟨given, changes, config, rfl, rfl, hfit, (Except.ok.inj hassemble).symm⟩

theorem ofBytes_congr (h : overrides environment = overrides environment') :
    ofBytes raw environment order = ofBytes raw environment' order := by
  unfold ofBytes assemble
  rw [h]

theorem ofBytes_of_overrides_error {e : ConfigError} (h : overrides environment = .error e) :
    ofBytes raw environment order =
      .error (if (Settings.parse? raw).isSome then e else .unreadable) := by
  unfold ofBytes assemble
  rw [h]
  cases Settings.parse? raw with
  | none => rfl
  | some given => rfl

/-- A change to the log settings is found under `log`, whatever `settings` are. -/
theorem exists_find_log_withOverrides (settings : Settings) {changes : Settings} {key : String}
    {v : Value} (hnodup : (changes.map (·.1)).Nodup) (hmem : (key, v) ∈ changes)
    (hplain : ∀ fields, v ≠ .map fields) :
    ∃ fields : Settings, (withOverrides settings changes).find "log" = .map fields ∧
      fields.find key = v := by
  have hlookup := (Settings.lookup_eq_some_iff hnodup).2 hmem
  rw [find_log_withOverrides settings (List.ne_nil_of_mem hmem)]
  rcases Settings.mergeValue_map (settings.lookup "log") changes with hnew | ⟨below, hmerged⟩
  · exact ⟨changes, hnew, Settings.find_eq_of_lookup hlookup⟩
  · refine ⟨_, hmerged, Settings.find_eq_of_lookup ?_⟩
    rw [Settings.lookup_merge hnodup, hlookup, Option.map_some,
      Settings.mergeValue_of_ne_map hplain]
    rfl

theorem log_of_ofSettings? {settings fields : Settings} (h : ofSettings? settings = some c)
    (hlog : settings.find "log" = .map fields) :
    Settings.text? (fields.find "level") = some c.log.level ∧
      Settings.flag? (fields.find "pretty") = some c.log.pretty := by
  unfold ofSettings? at h
  obtain ⟨log, hvalue, h⟩ := Option.bind_eq_some_iff.1 h
  obtain ⟨_, -, h⟩ := Option.bind_eq_some_iff.1 h
  cases h
  rw [hlog] at hvalue
  unfold LogSettings.ofValue? at hvalue
  obtain ⟨found, hfound, hvalue⟩ := Option.bind_eq_some_iff.1 hvalue
  cases hfound
  obtain ⟨level, hlevel, hvalue⟩ := Option.bind_eq_some_iff.1 hvalue
  obtain ⟨pretty, hpretty, hvalue⟩ := Option.bind_eq_some_iff.1 hvalue
  cases hvalue
  exact ⟨hlevel, hpretty⟩

theorem projects_of_ofSettings? {settings : Settings} (h : ofSettings? settings = some c) :
    Project.allOfValue? (settings.find "projects") = some c.projects := by
  unfold ofSettings? at h
  obtain ⟨_, -, h⟩ := Option.bind_eq_some_iff.1 h
  obtain ⟨projects, hprojects, h⟩ := Option.bind_eq_some_iff.1 h
  cases h
  exact hprojects

/-- The configuration has the last setting of `key` that `made environment` has. -/
theorem log_of_made {before after : Settings} {key : String} {v : Value}
    (h : ofBytes raw environment order = .ok c)
    (hmade : made environment = before ++ (key, v) :: after)
    (hafter : ∀ s ∈ after, s.1 ≠ key) (hplain : ∀ fields, v ≠ .map fields) :
    ∃ (fields : Settings) (level : String), fields.find key = v ∧
      Settings.text? (fields.find "level") = some level ∧
      c.log.level = Text.lower (Text.trim level) ∧
      Settings.flag? (fields.find "pretty") = some c.log.pretty := by
  obtain ⟨given, changes, config, -, hchanges, hfit, hc⟩ := exists_of_ofBytes h
  obtain rfl := eq_lastOf_of_overrides hchanges
  have hmem : (key, v) ∈ lastOf (made environment) := by
    rw [hmade, mem_lastOf_iff hafter]
  obtain ⟨fields, hlog, hfind⟩ := exists_find_log_withOverrides
    (Settings.merge defaults (Settings.arrange order given)) (nodup_lastOf _) hmem hplain
  obtain ⟨hlevel, hpretty⟩ := log_of_ofSettings? hfit hlog
  refine ⟨fields, config.log.level, hfind, hlevel, ?_, ?_⟩
  · rw [hc, level_normalized]
  · rw [hc, pretty_normalized, hpretty]

/-- If `Settings.parse?` reads `raw`, then as a map that is `Value.Unambiguous`. -/
def Unambiguous (raw : ByteArray) : Prop :=
  ∀ given, Settings.parse? raw = some given → (Value.map given).Unambiguous

instance (raw : ByteArray) : Decidable (Unambiguous raw) :=
  decidable_of_iff
      ((Settings.parse? raw).all fun given => decide (Value.map given).Unambiguous) <| by
    unfold Unambiguous
    cases Settings.parse? raw <;> simp

/-- `order` and `order'` arrange `raw` alike: they are equal, or `raw` is `Unambiguous`. -/
def Agree (raw : ByteArray) (order order' : Settings.Order) : Prop :=
  order = order' ∨ Unambiguous raw

theorem arrange_alike (h : Unambiguous raw) {given : Settings}
    (hgiven : Settings.parse? raw = some given) (order order' : Settings.Order) :
    (Value.map (Settings.arrange order given)).Alike (.map (Settings.arrange order' given)) ∧
      (Value.map (Settings.arrange order given)).Unambiguous := by
  rw [Settings.map_arrange, Settings.map_arrange]
  exact ⟨Settings.arrangeValue_alike order order' (h given hgiven) [] [],
    Settings.unambiguous_arrangeValue order (h given hgiven) []⟩

/-- `c.projects` does not depend on the environment. -/
theorem projects_of_ofBytes (horder : Agree raw order order')
    (h : ofBytes raw environment order = .ok c)
    (h' : ofBytes raw environment' order' = .ok c') : c.projects.Perm c'.projects := by
  obtain ⟨given, changes, config, hgiven, -, hfit, rfl⟩ := exists_of_ofBytes h
  obtain ⟨given', changes', config', hgiven', -, hfit', rfl⟩ := exists_of_ofBytes h'
  obtain rfl : given = given' := Option.some.inj (hgiven.symm.trans hgiven')
  have hprojects := projects_of_ofSettings? hfit
  have hprojects' := projects_of_ofSettings? hfit'
  rw [find_projects_withOverrides] at hprojects hprojects'
  rw [projects_normalized, projects_normalized]
  rcases horder with rfl | hraw
  · rw [Option.some.inj (hprojects.symm.trans hprojects')]
  · obtain ⟨halike, hunambiguous⟩ := arrange_alike hraw hgiven order order'
    obtain ⟨hfound, hclear⟩ := find_projects_merge halike hunambiguous
    have hrel := Settings.allOfValue?_rel hclear _ hfound
    rw [hprojects, hprojects'] at hrel
    cases hrel with
    | some hsame => exact hsame.perm

/-- **Environments with the same `overrides` lead to the same result.** -/
theorem sameResult_ofBytes (horder : Agree raw order order')
    (h : overrides environment = overrides environment') :
    SameResult (ofBytes raw environment order) (ofBytes raw environment' order') := by
  rw [ofBytes_congr h]
  rcases horder with rfl | hraw
  · exact .refl _
  · unfold ofBytes assemble
    cases hgiven : Settings.parse? raw with
    | none => exact .error _
    | some given =>
      cases hchanges : overrides environment' with
      | error e => exact .error e
      | ok changes =>
        obtain ⟨halike, hunambiguous⟩ := arrange_alike hraw hgiven order order'
        obtain rfl := eq_lastOf_of_overrides hchanges
        have hrel := ofSettings?_rel halike hunambiguous (nodup_lastOf (made environment'))
          fun f hf => ne_map_of_mem_lastOf hf
        dsimp only [bind, Except.bind]
        generalize ofSettings? _ = a at hrel
        generalize ofSettings? _ = b at hrel
        cases hrel with
        | none => exact .error _
        | some hconfigs => exact sameResult_validate hconfigs.normalized

/-- `c.log.level` is the value of the last assignment to `log.level`, trimmed and in lower case. -/
theorem level_of_ofBytes {before after : List (String × String)} {name value : String}
    (h : ofBytes raw environment order = .ok c)
    (hcut : assignments environment = before ++ (name, value) :: after)
    (hpath : path name = "log.level") (hafter : ∀ a ∈ after, path a.1 ≠ "log.level") :
    c.log.level = Text.lower (Text.trim value) := by
  have hsetting : setting? (name, value) = some ("level", .text value) := by
    unfold setting?
    rw [hpath]
    rfl
  have hlater : ∀ s ∈ after.filterMap setting?, s.1 ≠ "level" := by
    intro s hs
    obtain ⟨a, ha, hs⟩ := List.mem_filterMap.1 hs
    rcases setting?_cases hs with ⟨hlevel, -⟩ | ⟨-, _, -, rfl⟩
    · exact absurd hlevel (hafter a ha)
    · exact (by decide : "pretty" ≠ "level")
  obtain ⟨fields, level, hfind, htext, hlevel, -⟩ :=
    log_of_made h (made_eq_append hcut hsetting) hlater fun _ => nofun
  rw [hfind] at htext
  cases htext
  exact hlevel

/-- `c.log.pretty` is the truth value of the last assignment to `log.pretty` that has one. -/
theorem pretty_of_ofBytes {before after : List (String × String)} {name value : String}
    {truth : Bool} (h : ofBytes raw environment order = .ok c)
    (hcut : assignments environment = before ++ (name, value) :: after)
    (hpath : path name = "log.pretty") (htruth : truth? (Text.trim value) = some truth)
    (hafter : ∀ a ∈ after, path a.1 = "log.pretty" → truth? (Text.trim a.2) = none) :
    c.log.pretty = truth := by
  have hsetting : setting? (name, value) = some ("pretty", .bool truth) := by
    unfold setting?
    rw [hpath]
    dsimp only
    rw [htruth]
    rfl
  -- later assignments to `pretty` have no truth value, so they make no setting
  have hlater : ∀ s ∈ after.filterMap setting?, s.1 ≠ "pretty" := by
    intro s hs
    obtain ⟨a, ha, hs⟩ := List.mem_filterMap.1 hs
    rcases setting?_cases hs with ⟨-, rfl⟩ | ⟨hpretty, b, hb, -⟩
    · exact (by decide : "level" ≠ "pretty")
    · rw [hafter a ha hpretty] at hb
      cases hb
  obtain ⟨fields, level, hfind, -, -, hflag⟩ :=
    log_of_made h (made_eq_append hcut hsetting) hlater fun _ => nofun
  rw [hfind] at hflag
  exact (Option.some.inj hflag).symm

/-- **What an environment can change.**  If `Agree raw order order'`, two environments lead to the
same projects, and to the `SameResult` if no entry is incomplete and `made` is the same.  The last
assignment to `log.level` is `c.log.level`, and the last one of a truth value to `log.pretty` is
`c.log.pretty`.  An environment with an `Incomplete` entry fails. -/
theorem ofBytes_environment (raw : ByteArray) (environment environment' : List String)
    (order order' : Settings.Order) :
    (Agree raw order order' →
      (∀ c c', ofBytes raw environment order = .ok c → ofBytes raw environment' order' = .ok c' →
        c.projects.Perm c'.projects) ∧
      ((∀ entry ∈ environment ++ environment', ¬ Incomplete entry) →
        made environment = made environment' →
        SameResult (ofBytes raw environment order) (ofBytes raw environment' order'))) ∧
    (∀ c, ofBytes raw environment order = .ok c →
      (∀ before entry after name value, environment = before ++ entry :: after →
        Assigns entry name value → path name = "log.level" →
        (∀ e ∈ after, ∀ n v, Assigns e n v → path n ≠ "log.level") →
        c.log.level = Text.lower (Text.trim value)) ∧
      (∀ before entry after name value truth, environment = before ++ entry :: after →
        Assigns entry name value → path name = "log.pretty" →
        truth? (Text.trim value) = some truth →
        (∀ e ∈ after, ∀ n v, Assigns e n v → path n = "log.pretty" →
          truth? (Text.trim v) = none) →
        c.log.pretty = truth)) ∧
    (∀ before entry after, environment = before ++ entry :: after →
      (∀ e ∈ before, ¬ Incomplete e) → Incomplete entry →
      ofBytes raw environment order =
        .error (if (Settings.parse? raw).isSome then .noValue entry else .unreadable)) := by
  refine ⟨fun horder => ⟨fun c c' => projects_of_ofBytes horder, ?_⟩, fun c h => ⟨?_, ?_⟩, ?_⟩
  · intro hcomplete hmade
    apply sameResult_ofBytes horder
    rw [overrides_of_complete fun e he => hcomplete e (List.mem_append_left _ he),
      overrides_of_complete fun e he => hcomplete e (List.mem_append_right _ he), hmade]
  · rintro before entry after name value rfl hassigns hpath hafter
    apply level_of_ofBytes h (assignments_append hassigns before after) hpath
    intro a ha
    obtain ⟨e, he, hlater⟩ := exists_of_mem_assignments ha
    exact hafter e he a.1 a.2 hlater
  · rintro before entry after name value truth rfl hassigns hpath htruth hafter
    apply pretty_of_ofBytes h (assignments_append hassigns before after) hpath htruth
    intro a ha hpretty
    obtain ⟨e, he, hlater⟩ := exists_of_mem_assignments ha
    exact hafter e he a.1 a.2 hlater hpretty
  · rintro before entry after rfl hbefore hentry
    exact ofBytes_of_overrides_error (overrides_of_incomplete hbefore hentry after)

/-- The order that visits the fields of each map from the last to the first. -/
def reversed : Settings.Order where
  visit _ fields := fields.reverse
  perm _ fields := fields.reverse_perm

/-- A payload with the level `debug` and two projects, of which the field `input` is spelled
`INPUT`. -/
def debugPayload : ByteArray :=
  (r#"{"log": {"level": "debug"}, "projects": {"# ++
    r#""a": {"INPUT": {"target": "in.json"}, "output": {"target": "out"}}, "# ++
    r#""b": {"output": {"target": "lib"}, "INPUT": {"target": "in.json"}}}}"#).toUTF8

/-- The configuration of `debugPayload`, but for the level. -/
def debugConfig (level : String) : Config where
  log := { level, pretty := true }
  projects :=
    [("a", { input := { target := "in.json" }, output := { target := "out" } }),
      ("b", { input := { target := "in.json" }, output := { target := "lib" } })]

theorem ofBytes_debugPayload : ofBytes debugPayload [] = .ok (debugConfig "debug") := by
  decide +kernel

/-- An environment with assignments to both log settings and entries that make no setting. -/
def mixedEnvironment : List String :=
  ["HOME=/root", "TYPEGEN_LOG_LEVEL=trace", "TYPEGEN_PROJECTS_A_INPUT_TARGET=b",
    "TYPEGEN_log.level= WARN ", "TYPEGEN_LOG_PRETTY=maybe"]

theorem ofBytes_environment_mixed :
    ∃ c, ofBytes debugPayload mixedEnvironment reversed = .ok c ∧
      Text.lower (Text.trim " WARN ") = "warn" ∧
      ofBytes debugPayload [] = .ok (debugConfig "debug") ∧
      c ≠ debugConfig "warn" ∧ c.projects.Perm (debugConfig "debug").projects ∧
      c.log.level = "warn" := by
  have hmixed : ofBytes debugPayload mixedEnvironment reversed =
      .ok { debugConfig "warn" with projects := (debugConfig "warn").projects.reverse } := by
    decide +kernel
  have hlower : Text.lower (Text.trim " WARN ") = "warn" := by decide +kernel
  have hassigns : Assigns "TYPEGEN_log.level= WARN " "log.level" " WARN " := by
    exact ⟨by decide +kernel, by decide⟩
  have hlater : ∀ n v, Assigns "TYPEGEN_LOG_PRETTY=maybe" n v → path n ≠ "log.level" := by
    intro n v hpretty
    have hfound : assigned? "TYPEGEN_LOG_PRETTY=maybe" = some ("LOG_PRETTY", "maybe") := by
      decide +kernel
    rw [assigned?_eq_some_iff.2 hpretty] at hfound
    cases hfound
    decide +kernel
  obtain ⟨hsame, hlog, -⟩ :=
    ofBytes_environment debugPayload mixedEnvironment [] reversed .written
  refine ⟨_, hmixed, hlower, ofBytes_debugPayload, by decide +kernel,
    (hsame (.inr (by decide +kernel))).1 _ _ hmixed ofBytes_debugPayload, ?_⟩
  have hlevel := (hlog _ hmixed).1
    ["HOME=/root", "TYPEGEN_LOG_LEVEL=trace", "TYPEGEN_PROJECTS_A_INPUT_TARGET=b"] _
    ["TYPEGEN_LOG_PRETTY=maybe"] _ _ rfl hassigns (by decide +kernel) fun e he =>
      List.mem_singleton.1 he ▸ hlater
  rwa [hlower] at hlevel

/-- A payload with the two spellings `INPUT` and `Input` of a field. -/
def spellingsPayload : ByteArray :=
  (r#"{"projects": {"a": {"INPUT": {"target": "x"}, "Input": {"target": "y"}, "# ++
    r#""output": {"target": "out"}}}}"#).toUTF8

-- Without `Unambiguous`, the projects depend on the order.
example : ofBytes spellingsPayload [] ≠ ofBytes spellingsPayload [] reversed := by
  decide +kernel

/-- The entry `TYPEGEN_X` makes no setting, and `ofBytes` fails with it. -/
theorem ofBytes_incomplete_entry :
    made ["TYPEGEN_X"] = made [] ∧ ofBytes debugPayload [] = .ok (debugConfig "debug") ∧
      ofBytes debugPayload ["TYPEGEN_X"] = .error (.noValue "TYPEGEN_X") := by
  have hassignments : assignments ["TYPEGEN_X"] = [] := by decide +kernel
  refine ⟨?_, ofBytes_debugPayload, by decide +kernel⟩
  rw [made, hassignments]
  rfl

end Config

end SchemaPress
