import SchemaPress.Config.Validation
import SchemaPress.Proofs.Url.Web

/-!
# The parts of a web address

A web address with a host is a scheme, two slashes, an authority, a path, a query and a fragment, of
which the last three may be missing.  `IsWebUrl` describes it by these parts as they are written.
What is found to be a web address is just that (`isWebAddress_iff_isWebUrl`).
-/

namespace SchemaPress.Url

open Text

variable {cs rest name : List Char}

/-! ### Parts -/

/-- `cs` is `scheme://`, `authority`, `path`, `query` and `fragment`.  A path that is not empty
starts with `/`, a query with `?` and a fragment with `#`, and none of these occurs in an earlier
part, but for `/` in the path. -/
structure WebParts (cs scheme authority path query fragment : List Char) : Prop where
  text : cs = scheme ++ ':' :: '/' :: '/' :: (authority ++ path ++ query) ++ fragment
  web : IsWebScheme scheme
  authority_plain : ∀ c ∈ authority, c ≠ '/' ∧ c ≠ '?' ∧ c ≠ '#'
  path_mark : ∀ c ∈ path.head?, c = '/'
  path_plain : ∀ c ∈ path, c ≠ '?' ∧ c ≠ '#'
  query_mark : ∀ c ∈ query.head?, c = '?'
  query_plain : ∀ c ∈ query, c ≠ '#'
  fragment_mark : ∀ c ∈ fragment.head?, c = '#'

/-- `authority` is a host, with or without a port, or a user, `@` and such a host. -/
def HasHost (authority : List Char) : Prop :=
  ∃ host, host ≠ [] ∧ '@' ∉ host ∧ isHostPort host = true ∧
    (authority = host ∨
      ∃ user, authority = user ++ '@' :: host ∧ isUser (user.map lowerChar) = true)

/-- `s` has `WebParts` with a host, well-formed escapes in the path and the fragment, and no control
character before the fragment. -/
def IsWebUrl (s : String) : Prop :=
  ∃ scheme authority path query fragment,
    WebParts s.toList scheme authority path query fragment ∧ HasHost authority ∧
    escapesWell path = true ∧ escapesWell fragment = true ∧
    ∀ c ∈ scheme ++ ':' :: '/' :: '/' :: (authority ++ path ++ query), isControl c = false

/-- A text is cut at the first `mark`, if `before` has none and `after` is empty or starts with it.
-/
theorem cut_at_mark {before after : List Char} {mark : Char} (hbefore : ∀ c ∈ before, c ≠ mark)
    (hafter : ∀ c ∈ after.head?, c = mark) :
    (before ++ after).takeWhile (· != mark) = before ∧
      (before ++ after).dropWhile (· != mark) = after := by
  have hpass : ∀ c ∈ before, (c != mark) = true := fun c hc => bne_iff_ne.2 (hbefore c hc)
  rw [List.takeWhile_append_of_pos hpass, List.dropWhile_append_of_pos hpass]
  cases after with
  | nil => simp
  | cons d more =>
    have hd : d = mark := hafter d rfl
    simp [hd]

theorem head?_dropWhile_mark (cs : List Char) (mark : Char) :
    ∀ c ∈ (cs.dropWhile (· != mark)).head?, c = mark := by
  intro c hc
  have hnot := List.head?_dropWhile_not (· != mark) cs
  rw [Option.mem_def.1 hc] at hnot
  simpa using hnot

theorem ne_of_mem_takeWhile_mark {mark c : Char} (h : c ∈ cs.takeWhile (· != mark)) :
    c ≠ mark := by
  have hpass := List.mem_takeWhile_imp h
  exact bne_iff_ne.1 hpass

/-! ### Hosts -/

/-- An authority `HasHost` if and only if the part after its last `@` is a host and the part before
it is a user. -/
theorem hasHost_append {user host : List Char} (hlast : '@' ∉ host) :
    HasHost (user ++ '@' :: host) ↔
      host ≠ [] ∧ isHostPort host = true ∧ isUser (user.map lowerChar) = true := by
  constructor
  · rintro ⟨found, hne, hclear, hport, hwhole | ⟨front, hcut, huser⟩⟩
    · exact absurd (hwhole ▸ List.mem_append_right _ List.mem_cons_self) hclear
    · -- both cuts are at the last at sign
      have hsame : some (user, host) = some (front, found) := by
        rw [← cutLast?_eq_some hlast, hcut, cutLast?_eq_some hclear]
      cases hsame
      exact ⟨hne, hport, huser⟩
  · rintro ⟨hne, hport, huser⟩
    exact ⟨host, hne, hlast, hport, .inr ⟨user, rfl, huser⟩⟩

theorem hasHost_of_notMem (h : '@' ∉ cs) : HasHost cs ↔ cs ≠ [] ∧ isHostPort cs = true := by
  constructor
  · rintro ⟨host, hne, -, hport, rfl | ⟨user, rfl, -⟩⟩
    · exact ⟨hne, hport⟩
    · exact absurd (List.mem_append_right _ List.mem_cons_self) h
  · rintro ⟨hne, hport⟩
    exact ⟨cs, hne, h, hport, .inl rfl⟩

/-- `host?` gives a host in lower case if and only if the authority `HasHost`. -/
theorem host?_map_lowerChar_iff (cs : List Char) :
    (∃ host, host? (cs.map lowerChar) = some host ∧ host ≠ "") ↔ HasHost cs := by
  have hat : IsMark '@' := by decide
  have hempty : ∀ host : List Char, String.ofList (host.map lowerChar) ≠ "" ↔ host ≠ [] := by
    intro host
    rw [Ne, String.ofList_eq_empty_iff, List.map_eq_nil_iff]
  unfold host?
  rw [cutLast?_map_lowerChar hat, isHostPort_map_lowerChar]
  by_cases hmem : '@' ∈ cs
  · obtain ⟨user, host, rfl, hlast⟩ := exists_last hmem
    rw [cutLast?_eq_some hlast, hasHost_append hlast]
    simp only [Option.map_some, isHostPort_map_lowerChar, Bool.and_eq_true,
      Option.ite_none_right_eq_some, Option.some.injEq]
    constructor
    · rintro ⟨_, ⟨⟨huser, hport⟩, rfl⟩, hne⟩
      exact ⟨(hempty host).1 hne, hport, huser⟩
    · rintro ⟨hne, hport, huser⟩
      exact ⟨_, ⟨⟨huser, hport⟩, rfl⟩, (hempty host).2 hne⟩
  · rw [cutLast?_eq_none hmem, hasHost_of_notMem hmem]
    simp only [Option.map_none, Option.ite_none_right_eq_some, Option.some.injEq]
    constructor
    · rintro ⟨_, ⟨hport, rfl⟩, hne⟩
      exact ⟨(hempty cs).1 hne, hport⟩
    · rintro ⟨hne, hport⟩
      exact ⟨_, ⟨hport, rfl⟩, (hempty cs).2 hne⟩

/-! ### Addresses without a fragment -/

theorem isControl_lowerChar (c : Char) : isControl (lowerChar c) = isControl c := by
  have hbeyond : ∀ {c : Char}, 128 ≤ c.toNat → isControl c = false := by
    intro c hc
    simp only [isControl, Bool.or_eq_false_iff, decide_eq_false_iff_not, beq_eq_false_iff_ne]
    omega
  refine lowerChar_ind (P := fun c d => isControl d = isControl c) (by decide) ?_ ?_ ?_ c
  · intro c d hc hd
    rw [hbeyond hc, hbeyond hd]
  · decide
  · decide

theorem IsWebScheme.map_lowerChar (h : IsWebScheme name) : IsWebScheme (name.map lowerChar) := by
  unfold IsWebScheme at h ⊢
  rcases h with h | h <;> rw [h]
  · exact .inl (by decide)
  · exact .inr (by decide)

/-- `parse?` reads a text in lower case as a web address with a host if and only if its scheme,
authority and path are well-formed, and it has no control character. -/
theorem exists_parse?_lower_iff (cs : List Char) :
    (∃ url, parse? false (String.ofList (cs.map lowerChar)) = some url ∧ url.isWeb = true ∧
      url.host ≠ "") ↔
    ∃ name rest, cs = name ++ ':' :: '/' :: '/' :: rest ∧ IsWebScheme name ∧
      (∀ c ∈ cs, isControl c = false) ∧ HasHost (authorityOf rest) ∧
      escapesWell (pathOf rest) = true := by
  have hmap : ∀ name rest : List Char, (name ++ ':' :: '/' :: '/' :: rest).map lowerChar =
      name.map lowerChar ++ ':' :: '/' :: '/' :: rest.map lowerChar := by
    intro name rest
    rw [List.map_append]
    rfl
  have hcontrols : ∀ cs : List Char, (cs.map lowerChar).any isControl = false ↔
      ∀ c ∈ cs, isControl c = false := by
    intro cs
    simp [isControl_lowerChar]
  constructor
  · rintro ⟨url, hparse, hweb, hhost⟩
    obtain ⟨scheme, tail, hlower, hscheme⟩ := exists_of_parse?_web hparse hweb hhost
    obtain ⟨name, rest, rfl, hname, rfl⟩ := exists_of_map_lowerChar hlower hscheme
    rw [hlower, parse?_web hscheme, ← hlower] at hparse
    split at hparse
    · cases hparse
    rename_i hcontrol
    split at hparse
    · rename_i host hfound
      split at hparse
      · rename_i hpath
        cases hparse
        rw [authorityOf_map_lowerChar] at hfound
        rw [pathOf_map_lowerChar, escapesWell_map_lowerChar] at hpath
        exact ⟨name, rest, rfl, hname, (hcontrols _).1 (Bool.eq_false_iff.2 hcontrol),
          (host?_map_lowerChar_iff _).1 ⟨host, hfound, hhost⟩, hpath⟩
      · cases hparse
    · cases hparse
  · rintro ⟨name, rest, rfl, hname, hcontrol, hhost, hpath⟩
    obtain ⟨host, hfound, hne⟩ := (host?_map_lowerChar_iff _).2 hhost
    refine ⟨⟨lower (String.ofList (name.map lowerChar)), host⟩, ?_, ?_, hne⟩
    · have hnone := (hcontrols _).2 hcontrol
      rw [hmap] at hnone ⊢
      rw [parse?_web hname.map_lowerChar, hnone, authorityOf_map_lowerChar, hfound,
        pathOf_map_lowerChar, escapesWell_map_lowerChar, hpath]
      rfl
    · rw [isWeb, lower, String.toList_ofList]
      dsimp only
      rcases hname.map_lowerChar with h | h <;> rw [h] <;> decide

/-! ### Addresses -/

theorem isWebAddress_iff (s : String) :
    isWebAddress s = true ↔
      ∃ url, parseReference? (lower s) = some url ∧ url.isWeb = true ∧ url.host ≠ "" := by
  unfold isWebAddress
  cases parseReference? (lower s) with
  | none => simp
  | some url => simp

/-- A tail is its authority, its path and its query. -/
theorem authorityOf_append_pathOf (rest : List Char) :
    authorityOf rest ++ pathOf rest ++ rest.dropWhile (· != '?') = rest := by
  rw [authorityOf, pathOf, List.takeWhile_append_dropWhile, withoutQuery,
    List.takeWhile_append_dropWhile]

theorem authorityOf_parts {authority path query : List Char}
    (hauthority : ∀ c ∈ authority, c ≠ '/' ∧ c ≠ '?') (hpath : ∀ c ∈ path, c ≠ '?')
    (hpathMark : ∀ c ∈ path.head?, c = '/') (hqueryMark : ∀ c ∈ query.head?, c = '?') :
    authorityOf (authority ++ path ++ query) = authority ∧
      pathOf (authority ++ path ++ query) = path := by
  have hfront : ∀ c ∈ authority ++ path, c ≠ '?' := by
    intro c hc
    rcases List.mem_append.1 hc with h | h
    · exact (hauthority c h).2
    · exact hpath c h
  have hquery : withoutQuery (authority ++ path ++ query) = authority ++ path :=
    (cut_at_mark hfront hqueryMark).1
  rw [authorityOf, pathOf, hquery]
  exact cut_at_mark (fun c hc => (hauthority c hc).1) hpathMark

/-- `isWebAddress s` if and only if `parse?` reads the part of `s` before `#` in lower case as a web
address with a host, and the escapes after it are well-formed. -/
theorem isWebAddress_iff_fragment (s : String) :
    isWebAddress s = true ↔
      (∃ url, parse? false (String.ofList ((s.toList.takeWhile (· != '#')).map lowerChar)) =
          some url ∧ url.isWeb = true ∧ url.host ≠ "") ∧
      escapesWell (s.toList.dropWhile (· != '#')) = true := by
  have hhash : IsMark '#' := by decide
  have hfragment : escapesWell (((lower s).toList.dropWhile (· != '#')).drop 1) =
      escapesWell (s.toList.dropWhile (· != '#')) := by
    rw [lower, String.toList_ofList, hhash.dropWhile_map_lowerChar, ← List.map_drop,
      escapesWell_map_lowerChar]
    have hmark := head?_dropWhile_mark s.toList '#'
    cases hdrop : s.toList.dropWhile (· != '#') with
    | nil => rfl
    | cons d more =>
      rw [hdrop] at hmark
      have hd : d = '#' := hmark d rfl
      rw [hd, escapesWell_cons (by decide)]
      rfl
  have hbase : (lower s).toList.takeWhile (· != '#') =
      (s.toList.takeWhile (· != '#')).map lowerChar := by
    rw [lower, String.toList_ofList, hhash.takeWhile_map_lowerChar]
  rw [isWebAddress_iff, parseReference?]
  dsimp only
  rw [hfragment, hbase]
  cases escapesWell (s.toList.dropWhile (· != '#')) with
  | false => simp
  | true => simp

/-- **`isWebAddress s` if and only if `IsWebUrl s`.** -/
theorem isWebAddress_iff_isWebUrl (s : String) : isWebAddress s = true ↔ IsWebUrl s := by
  rw [isWebAddress_iff_fragment, exists_parse?_lower_iff]
  constructor
  · rintro ⟨⟨name, rest, hbase, hname, hcontrol, hhost, hpath⟩, hfragment⟩
    have hparts := authorityOf_append_pathOf rest
    have hclear : ∀ c ∈ rest, c ≠ '#' := by
      intro c hc
      have hmem : c ∈ s.toList.takeWhile (· != '#') := by
        rw [hbase]
        simp [hc]
      exact ne_of_mem_takeWhile_mark hmem
    have hsub : ∀ c ∈ withoutQuery rest, c ≠ '?' ∧ c ≠ '#' := fun c hc =>
      ⟨ne_of_mem_takeWhile_mark hc, hclear c ((List.takeWhile_prefix _).subset hc)⟩
    refine ⟨name, authorityOf rest, pathOf rest, rest.dropWhile (· != '?'),
      s.toList.dropWhile (· != '#'), ⟨?_, hname, ?_, ?_, ?_, ?_, ?_, ?_⟩, hhost, hpath,
      hfragment, ?_⟩
    · rw [hparts, ← hbase, List.takeWhile_append_dropWhile]
    · intro c hc
      exact ⟨ne_of_mem_takeWhile_mark hc, hsub c ((List.takeWhile_prefix _).subset hc)⟩
    · exact head?_dropWhile_mark _ '/'
    · exact fun c hc => hsub c ((List.dropWhile_suffix _).subset hc)
    · exact head?_dropWhile_mark _ '?'
    · exact fun c hc => hclear c ((List.dropWhile_suffix _).subset hc)
    · exact head?_dropWhile_mark _ '#'
    · rwa [hparts, ← hbase]
  · rintro ⟨scheme, authority, path, query, fragment, hparts, hhost, hpath, hfragment, hcontrol⟩
    have hclear : ∀ c ∈ scheme ++ ':' :: '/' :: '/' :: (authority ++ path ++ query), c ≠ '#' := by
      intro c hc
      simp only [List.mem_append, List.mem_cons] at hc
      rcases hc with hc | rfl | rfl | rfl | (hc | hc) | hc
      · rintro rfl
        exact absurd (hparts.web.isAlpha hc) (by decide)
      · decide
      · decide
      · decide
      · exact (hparts.authority_plain c hc).2.2
      · exact (hparts.path_plain c hc).2
      · exact hparts.query_plain c hc
    obtain ⟨hbase, hrest⟩ := cut_at_mark hclear hparts.fragment_mark
    rw [← hparts.text] at hbase hrest
    obtain ⟨hauthority, hpathOf⟩ := authorityOf_parts
      (fun c hc => ⟨(hparts.authority_plain c hc).1, (hparts.authority_plain c hc).2.1⟩)
      (fun c hc => (hparts.path_plain c hc).1) hparts.path_mark hparts.query_mark
    rw [hbase, hrest]
    refine ⟨⟨scheme, authority ++ path ++ query, rfl, hparts.web, hcontrol, ?_, ?_⟩, hfragment⟩
    · rwa [hauthority]
    · rwa [hpathOf]

end SchemaPress.Url
