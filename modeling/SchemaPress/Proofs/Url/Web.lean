import SchemaPress.Proofs.Url.Lower

/-!
# Web addresses and requests

A web address is found to be one in lower case and without its fragment; a request takes it as it is
written.  Both look at the same parts: the scheme, the authority between the two slashes and the
next slash or question mark, and the path (`parse?_web`).  What the first finds in order the second
does too, with three exceptions (`parse?_request`): the fragment may hold control characters, it is
a part of the authority if it stands right behind the host, and what stands in front of the host has
to be of ASCII as it is written.
-/

namespace SchemaPress.Url

open Text

variable {cs tail name : List Char} {request : Bool} {scheme : String} {url : Url}

/-! ### The parts of an address -/

/-- The text up to the first `/` or `?`. -/
def authorityOf (tail : List Char) : List Char :=
  (withoutQuery tail).takeWhile (· != '/')

/-- The text from the first `/` up to the first `?`. -/
def pathOf (tail : List Char) : List Char :=
  (withoutQuery tail).dropWhile (· != '/')

/-- `http` or `https`, in any case. -/
def IsWebScheme (name : List Char) : Prop :=
  name.map lowerChar = ['h', 't', 't', 'p'] ∨ name.map lowerChar = ['h', 't', 't', 'p', 's']

/-- Only letters of ASCII have their lower case among those of `https`. -/
theorem isAlpha_of_lowerChar (c : Char) (h : ['h', 't', 'p', 's'].contains (lowerChar c) = true) :
    c.isAlpha = true := by
  revert h
  refine lowerChar_ind (P := fun c d => ['h', 't', 'p', 's'].contains d = true → c.isAlpha = true)
    (by decide) ?_ (by decide) (by decide) c
  intro c d _ hd hmem
  simp only [List.contains_cons, List.contains_nil, Bool.or_false, Bool.or_eq_true, beq_iff_eq]
    at hmem
  rcases hmem with rfl | rfl | rfl | rfl <;> exact absurd hd (by decide)

theorem IsWebScheme.isAlpha (h : IsWebScheme name) {c : Char} (hc : c ∈ name) :
    c.isAlpha = true := by
  have hletters : (name.map lowerChar).all (['h', 't', 'p', 's'].contains ·) = true := by
    rcases h with h | h <;> rw [h] <;> rfl
  exact isAlpha_of_lowerChar c (List.all_eq_true.1 hletters _ (List.mem_map_of_mem hc))

theorem IsWebScheme.exists_cons (h : IsWebScheme name) : ∃ c rest, name = c :: rest := by
  cases name with
  | nil => rcases h with h | h <;> cases h
  | cons c rest => exact ⟨c, rest, rfl⟩

theorem schemeOf_web (h : IsWebScheme name) (rest : List Char) :
    schemeOf (name ++ ':' :: rest) = some (some (name, rest)) := by
  have hall : ∀ c ∈ name, (c.isAlphanum || c == '+' || c == '-' || c == '.') = true := by
    intro c hc
    simp [Char.isAlphanum, h.isAlpha hc]
  have hdrop : (name ++ ':' :: rest).dropWhile
      (fun c => c.isAlphanum || c == '+' || c == '-' || c == '.') = ':' :: rest := by
    rw [List.dropWhile_append_of_pos hall]
    rfl
  have htake : (name ++ ':' :: rest).takeWhile
      (fun c => c.isAlphanum || c == '+' || c == '-' || c == '.') = name := by
    rw [List.takeWhile_append_of_pos hall, List.takeWhile_cons_of_neg (by decide), List.append_nil]
  obtain ⟨c, more, rfl⟩ := h.exists_cons
  have hc : c.isAlpha = true := h.isAlpha List.mem_cons_self
  have hcolon : ¬ (c == ':') = true := by
    rw [beq_iff_eq]
    rintro rfl
    cases hc
  rw [List.cons_append] at hdrop htake ⊢
  unfold schemeOf
  dsimp only
  rw [if_neg hcolon, if_neg (by rw [hc]; decide), hdrop, htake]
  rfl

/-- **`parse?` of a web address** fails on control characters, and otherwise depends on `host?` of
the authority and `escapesWell` of the path. -/
theorem parse?_web (h : IsWebScheme name) (request : Bool) (tail : List Char) :
    parse? request (String.ofList (name ++ ':' :: '/' :: '/' :: tail)) =
      if (name ++ ':' :: '/' :: '/' :: tail).any isControl then none
      else
        match host? (authorityOf tail) with
        | some host =>
          if escapesWell (pathOf tail) then some ⟨lower (String.ofList name), host⟩ else none
        | none => none := by
  have hscheme : (lower (String.ofList name) != "") = true := by
    rw [bne_iff_ne, lower, String.toList_ofList]
    rcases h with h | h <;> rw [h] <;> decide
  have hstar : ((name ++ ':' :: '/' :: '/' :: tail) == ['*']) = false := by
    rw [beq_eq_false_iff_ne]
    intro heq
    have hlength := congrArg List.length heq
    simp only [List.length_append, List.length_cons, List.length_nil] at hlength
    omega
  have hquery : withoutQuery ('/' :: '/' :: tail) = '/' :: '/' :: withoutQuery tail := by
    rw [withoutQuery_cons (by decide), withoutQuery_cons (by decide)]
  have hempty : (name ++ ':' :: '/' :: '/' :: tail).isEmpty = false := by simp
  rw [parse?, String.toList_ofList, hempty, Bool.and_false, Bool.or_false, hstar, schemeOf_web h]
  congr 1
  simp only [afterScheme?, hquery, hscheme, List.head?_cons, List.isPrefixOf_cons_cons,
    List.drop_succ_cons, List.drop_zero]
  rfl

/-- If `parse?` reads a web address, `host?` gives a host and the escapes of the path are
well-formed. -/
theorem of_parse?_web (h : IsWebScheme name)
    (hparse : parse? request (String.ofList (name ++ ':' :: '/' :: '/' :: tail)) = some url) :
    (host? (authorityOf tail)).isSome = true ∧ escapesWell (pathOf tail) = true := by
  rw [parse?_web h] at hparse
  split at hparse
  · cases hparse
  · split at hparse
    · rename_i hhost
      split at hparse
      · rename_i hpath
        exact ⟨by rw [hhost]; rfl, hpath⟩
      · cases hparse
    · cases hparse

theorem parse?_web_eq_none (h : IsWebScheme name)
    (hbad : (∃ c ∈ name ++ ':' :: '/' :: '/' :: tail, isControl c = true) ∨
      host? (authorityOf tail) = none) :
    parse? request (String.ofList (name ++ ':' :: '/' :: '/' :: tail)) = none := by
  rw [parse?_web h]
  rcases hbad with hcontrol | hhost
  · rw [if_pos (List.any_eq_true.2 hcontrol)]
  · rw [hhost]
    split <;> rfl

theorem exists_parse?_web (h : IsWebScheme name)
    (hcontrol : ∀ c ∈ name ++ ':' :: '/' :: '/' :: tail, isControl c = false)
    (hhost : (host? (authorityOf tail)).isSome = true) (hpath : escapesWell (pathOf tail) = true) :
    ∃ url, parse? request (String.ofList (name ++ ':' :: '/' :: '/' :: tail)) = some url ∧
      url.isWeb = true := by
  obtain ⟨host, hhost⟩ := Option.isSome_iff_exists.1 hhost
  have hnone : ¬ (name ++ ':' :: '/' :: '/' :: tail).any isControl = true := by
    rw [List.any_eq_true]
    rintro ⟨c, hc, htrue⟩
    rw [hcontrol c hc] at htrue
    cases htrue
  refine ⟨⟨lower (String.ofList name), host⟩, ?_, ?_⟩
  · rw [parse?_web h, if_neg hnone, hhost, hpath]
    rfl
  · rw [isWeb, lower, String.toList_ofList]
    dsimp only
    rcases h with h | h <;> rw [h] <;> decide

theorem exists_of_isPrefixOf_withoutQuery (h : ['/', '/'].isPrefixOf (withoutQuery cs) = true) :
    ∃ tail, cs = '/' :: '/' :: tail := by
  obtain ⟨more, hmore⟩ := List.isPrefixOf_iff_prefix.1 h
  refine ⟨more ++ cs.dropWhile (· != '?'), ?_⟩
  calc cs = withoutQuery cs ++ cs.dropWhile (· != '?') := List.takeWhile_append_dropWhile.symm
    _ = '/' :: '/' :: (more ++ cs.dropWhile (· != '?')) := by rw [← hmore]; rfl

/-- The result of `afterScheme?` has the given scheme, and a host only if two slashes follow. -/
theorem afterScheme?_eq_some (h : afterScheme? request scheme cs = some url) :
    url.scheme = scheme ∧ (url.host ≠ "" → ∃ tail, cs = '/' :: '/' :: tail) := by
  unfold afterScheme? at h
  dsimp only at h
  by_cases hopaque : ((withoutQuery cs).head? != some '/') = true
  · rw [if_pos hopaque] at h
    by_cases hscheme : (scheme != "") = true
    · rw [if_pos hscheme] at h
      cases h
      exact ⟨rfl, fun hhost => absurd rfl hhost⟩
    · rw [if_neg hscheme] at h
      have hempty : scheme = "" := by simpa using hscheme
      split_ifs at h
      cases h
      exact ⟨hempty.symm, fun hhost => absurd rfl hhost⟩
  · rw [if_neg hopaque] at h
    split at h
    · rename_i hslashes
      rw [Bool.and_eq_true] at hslashes
      have htail := exists_of_isPrefixOf_withoutQuery hslashes.1
      split at h
      · split_ifs at h
        cases h
        exact ⟨rfl, fun _ => htail⟩
      · cases h
    · split_ifs at h
      cases h
      exact ⟨rfl, fun hhost => absurd rfl hhost⟩

theorem schemeOf_eq_some {rest : List Char} (h : schemeOf cs = some (some (name, rest))) :
    cs = name ++ ':' :: rest := by
  unfold schemeOf at h
  dsimp only at h
  split at h
  · cases h
  · split at h
    · cases h
    split at h
    · cases h
    split at h
    · rename_i hdrop
      cases h
      rw [← hdrop, List.takeWhile_append_dropWhile]
    · cases h

/-- **If `parse?` reads a web address with a host**, the text is a web scheme, `://` and a tail. -/
theorem exists_of_parse?_web (h : parse? request (String.ofList cs) = some url)
    (hweb : url.isWeb = true) (hhost : url.host ≠ "") :
    ∃ name tail, cs = name ++ ':' :: '/' :: '/' :: tail ∧ IsWebScheme name := by
  unfold parse? at h
  rw [String.toList_ofList] at h
  dsimp only at h
  split_ifs at h
  · cases h
    exact absurd rfl hhost
  · split at h
    · cases h
    · have hscheme := (afterScheme?_eq_some h).1
      rw [isWeb, hscheme] at hweb
      exact absurd hweb (by decide)
    · rename_i name rest hsplit
      obtain ⟨hscheme, hslashes⟩ := afterScheme?_eq_some h
      obtain ⟨tail, rfl⟩ := hslashes hhost
      refine ⟨name, tail, schemeOf_eq_some hsplit, ?_⟩
      have hlower : (lower (String.ofList name)).toList = name.map lowerChar := by
        rw [lower, String.toList_ofList, String.toList_ofList]
      rw [isWeb, hscheme, Bool.or_eq_true, beq_iff_eq, beq_iff_eq] at hweb
      unfold IsWebScheme
      rw [← hlower]
      rcases hweb with hweb | hweb <;> rw [hweb]
      · exact .inl (by decide)
      · exact .inr (by decide)

/-! ### Hosts of requests -/

theorem isHost_eq_false_of_hash (zone : Bool) (h : '#' ∈ cs) : isHost zone cs = false := by
  fun_induction isHost zone cs with
  | case1 a b rest ih =>
    rw [List.mem_cons, List.mem_cons, List.mem_cons] at h
    rcases h with h | rfl | rfl | h
    · exact absurd h (by decide)
    · rfl
    · cases hexValue? a <;> simp [isHostEscape, show hexValue? '#' = none from rfl]
    · rw [ih h, Bool.and_false]
  | case2 c rest hshort ih =>
    rw [List.mem_cons] at h
    rcases h with rfl | h
    · rfl
    · rw [ih h, Bool.and_false]
  | case3 => cases h

theorem cutBefore_append (word cs : List Char) :
    (cutBefore word cs).1 ++ (cutBefore word cs).2 = cs := by
  induction cs with
  | nil => rfl
  | cons c rest ih =>
    rw [cutBefore]
    by_cases h : word.isPrefixOf (c :: rest) = true
    · rw [if_pos h]
      rfl
    · rw [if_neg h]
      dsimp only
      rw [List.cons_append, ih]

/-- `isHostPort` refuses `#`. -/
theorem isHostPort_eq_false_of_hash (h : '#' ∈ cs) : isHostPort cs = false := by
  unfold isHostPort
  by_cases hbracket : (cs.head? == some '[') = true
  · rw [if_pos hbracket]
    by_cases hclose : ']' ∈ cs
    · obtain ⟨inside, port, rfl, hlast⟩ := exists_last hclose
      rw [cutLast?_eq_some hlast]
      dsimp only
      rw [List.mem_append] at h
      rcases h with h | h
      · rw [← cutBefore_append ['%', '2', '5'] inside, List.mem_append] at h
        rcases h with h | h <;> rw [isHost_eq_false_of_hash _ h] <;> simp
      · rw [isHost_eq_false_of_hash _ h, Bool.and_false]
    · rw [cutLast?_eq_none hclose]
  · rw [if_neg hbracket, isHost_eq_false_of_hash false h, Bool.and_false]

theorem isUser_eq_false_of_hash (h : '#' ∈ cs) : isUser cs = false := by
  have hall : cs.all isUserChar = false := List.all_eq_false.2 ⟨'#', h, by decide⟩
  exact Bool.and_eq_false_iff.2 (.inl hall)

/-- `host?` refuses `#`. -/
theorem host?_eq_none_of_hash (h : '#' ∈ cs) : host? cs = none := by
  unfold host?
  by_cases hat : '@' ∈ cs
  · obtain ⟨user, host, rfl, hlast⟩ := exists_last hat
    rw [cutLast?_eq_some hlast]
    dsimp only
    rw [List.mem_append, List.mem_cons] at h
    rcases h with h | h | h
    · rw [isUser_eq_false_of_hash h, Bool.false_and]
      rfl
    · exact absurd h (by decide)
    · rw [isHostPort_eq_false_of_hash h, Bool.and_false]
      rfl
  · rw [cutLast?_eq_none hat, isHostPort_eq_false_of_hash h]
    rfl

/-- Every character before an `@` is in ASCII. -/
def PlainUser (authority : List Char) : Prop :=
  ∀ user host, authority = user ++ '@' :: host → ∀ c ∈ user, c.toNat < 128

/-- The last `@` decides about `PlainUser`. -/
theorem plainUser_iff {user host : List Char} (h : '@' ∉ host) :
    PlainUser (user ++ '@' :: host) ↔ ∀ c ∈ user, c.toNat < 128 := by
  refine ⟨fun hplain => hplain user host rfl, ?_⟩
  intro hall other more heq c hc
  rcases List.append_eq_append_iff.1 heq with ⟨between, rfl, hrest⟩ | ⟨between, rfl, hrest⟩
  · cases between with
    | nil => exact hall c (by simpa using hc)
    | cons d between =>
      rw [List.cons_append, List.cons.injEq] at hrest
      exact absurd (hrest.2 ▸ List.mem_append_right _ List.mem_cons_self) h
  · exact hall c (List.mem_append_left _ hc)

/-- **`host?` gives a host if and only if it does so in lower case and the authority has a
`PlainUser`.** -/
theorem host?_isSome_iff (cs : List Char) :
    (host? cs).isSome = true ↔ (host? (cs.map lowerChar)).isSome = true ∧ PlainUser cs := by
  have hat : IsMark '@' := by decide
  unfold host?
  rw [cutLast?_map_lowerChar hat, isHostPort_map_lowerChar]
  by_cases hmem : '@' ∈ cs
  · obtain ⟨user, host, rfl, hlast⟩ := exists_last hmem
    rw [cutLast?_eq_some hlast, plainUser_iff hlast]
    simp only [Option.map_some, isHostPort_map_lowerChar]
    have huser := isUser_iff user
    by_cases hhost : isHostPort host = true
    · simpa [hhost] using huser
    · simp [hhost]
  · rw [cutLast?_eq_none hmem]
    simp only [Option.map_none]
    have hplain : PlainUser cs := by
      rintro user host rfl
      exact absurd (List.mem_append_right _ List.mem_cons_self) hmem
    by_cases hhost : isHostPort cs = true <;> simp [hhost, hplain]

/-! ### Fragments -/

theorem withoutQuery_append (cs ds : List Char) :
    withoutQuery (cs ++ ds) = withoutQuery cs ∨
      withoutQuery cs = cs ∧ withoutQuery (cs ++ ds) = cs ++ withoutQuery ds := by
  induction cs with
  | nil => exact .inr ⟨rfl, rfl⟩
  | cons c rest ih =>
    by_cases hc : c = '?'
    · subst hc
      exact .inl rfl
    · rw [List.cons_append, withoutQuery_cons hc, withoutQuery_cons hc]
      rcases ih with h | ⟨hcs, h⟩
      · exact .inl (by rw [h])
      · exact .inr ⟨by rw [hcs], by rw [h]; rfl⟩

theorem authorityOf_cons {c : Char} (hquery : c ≠ '?') (hslash : c ≠ '/') (cs : List Char) :
    authorityOf (c :: cs) = c :: authorityOf cs := by
  rw [authorityOf, withoutQuery_cons hquery, List.takeWhile_cons_of_pos (by simpa using hslash)]
  rfl

theorem pathOf_cons {c : Char} (hquery : c ≠ '?') (hslash : c ≠ '/') (cs : List Char) :
    pathOf (c :: cs) = pathOf cs := by
  rw [pathOf, withoutQuery_cons hquery, List.dropWhile_cons_of_pos (by simpa using hslash)]
  rfl

/-- If `ds` is appended, it continues the authority; or the authority stays, and the path stays or
is continued by `withoutQuery ds`. -/
theorem authorityOf_append (cs ds : List Char) :
    authorityOf (cs ++ ds) = cs ++ authorityOf ds ∨
      authorityOf (cs ++ ds) = authorityOf cs ∧
        (pathOf (cs ++ ds) = pathOf cs ∨ pathOf (cs ++ ds) = pathOf cs ++ withoutQuery ds) := by
  induction cs with
  | nil => exact .inl rfl
  | cons c rest ih =>
    rw [List.cons_append]
    by_cases hquery : c = '?'
    · subst hquery
      exact .inr ⟨rfl, .inl rfl⟩
    by_cases hslash : c = '/'
    · subst hslash
      have hpath : ∀ es, pathOf ('/' :: es) = '/' :: withoutQuery es := by
        intro es
        rw [pathOf, withoutQuery_cons (by decide), List.dropWhile_cons_of_neg (by decide)]
      have hnone : ∀ es, authorityOf ('/' :: es) = [] := by
        intro es
        rw [authorityOf, withoutQuery_cons (by decide), List.takeWhile_cons_of_neg (by decide)]
      refine .inr ⟨by rw [hnone, hnone], ?_⟩
      rw [hpath, hpath]
      rcases withoutQuery_append rest ds with h | ⟨hrest, h⟩
      · exact .inl (by rw [h])
      · exact .inr (by rw [h, hrest]; rfl)
    · rw [authorityOf_cons hquery hslash, authorityOf_cons hquery hslash,
        pathOf_cons hquery hslash, pathOf_cons hquery hslash]
      rcases ih with h | ⟨h, hpath⟩
      · exact .inl (by rw [h]; rfl)
      · exact .inr ⟨by rw [h], hpath⟩

/-- A fragment with well-formed escapes changes neither the authority nor `escapesWell` of the path,
if it is not in the authority. -/
theorem escapesWell_pathOf_append {ds : List Char} (hds : escapesWell ds = true)
    (hhash : ds ≠ [] → ds.head? = some '#') (hclear : '#' ∉ authorityOf (cs ++ ds))
    (hpath : escapesWell (pathOf cs) = true) :
    authorityOf (cs ++ ds) = authorityOf cs ∧ escapesWell (pathOf (cs ++ ds)) = true := by
  cases ds with
  | nil => exact ⟨by rw [List.append_nil], by rwa [List.append_nil]⟩
  | cons d rest =>
    have hd : d = '#' := by simpa using hhash (by simp)
    subst hd
    rcases authorityOf_append cs ('#' :: rest) with h | ⟨h, hsame | hlonger⟩
    · rw [h, authorityOf_cons (by decide) (by decide)] at hclear
      exact absurd (List.mem_append_right _ List.mem_cons_self) hclear
    · exact ⟨h, by rwa [hsame]⟩
    · exact ⟨h, by rw [hlonger]; exact escapesWell_append hpath (escapesWell_withoutQuery hds)⟩

/-! ### From a web address to a request -/

theorem IsMark.bne_comp_lowerChar {sep : Char} (h : IsMark sep) :
    (· != sep) ∘ lowerChar = (· != sep) := by
  funext c
  exact congrArg not (h.beq_lowerChar c)

theorem IsMark.takeWhile_map_lowerChar {sep : Char} (h : IsMark sep) (cs : List Char) :
    (cs.map lowerChar).takeWhile (· != sep) = (cs.takeWhile (· != sep)).map lowerChar := by
  rw [List.takeWhile_map, h.bne_comp_lowerChar]

theorem IsMark.dropWhile_map_lowerChar {sep : Char} (h : IsMark sep) (cs : List Char) :
    (cs.map lowerChar).dropWhile (· != sep) = (cs.dropWhile (· != sep)).map lowerChar := by
  rw [List.dropWhile_map, h.bne_comp_lowerChar]

theorem authorityOf_map_lowerChar (cs : List Char) :
    authorityOf (cs.map lowerChar) = (authorityOf cs).map lowerChar := by
  have hquery : IsMark '?' := by decide
  have hslash : IsMark '/' := by decide
  rw [authorityOf, withoutQuery, hquery.takeWhile_map_lowerChar, hslash.takeWhile_map_lowerChar]
  rfl

theorem pathOf_map_lowerChar (cs : List Char) :
    pathOf (cs.map lowerChar) = (pathOf cs).map lowerChar := by
  have hquery : IsMark '?' := by decide
  have hslash : IsMark '/' := by decide
  rw [pathOf, withoutQuery, hquery.takeWhile_map_lowerChar, hslash.dropWhile_map_lowerChar]
  rfl

/-- For the letters of `https`, `lowerChar` is idempotent. -/
theorem lowerChar_lowerChar (c : Char)
    (h : ['h', 't', 'p', 's'].contains (lowerChar (lowerChar c)) = true) :
    lowerChar (lowerChar c) = lowerChar c := by
  revert h
  refine lowerChar_ind
    (P := fun _ d => ['h', 't', 'p', 's'].contains (lowerChar d) = true → lowerChar d = d)
    (by decide) ?_ (by decide) (by decide) c
  intro _ d _ hd hmem
  have halpha := isAlpha_of_lowerChar d hmem
  have huser : isUserChar d = true := by simp [isUserChar, Char.isAlphanum, halpha]
  rw [isUserChar_eq_false_of_beyond hd] at huser
  cases huser

/-- A text is a web scheme if it is one in lower case. -/
theorem IsWebScheme.of_map_lowerChar (h : IsWebScheme (name.map lowerChar)) : IsWebScheme name := by
  have hletters :
      ((name.map lowerChar).map lowerChar).all (['h', 't', 'p', 's'].contains ·) = true := by
    rcases h with h | h <;> rw [h] <;> rfl
  have hsame : (name.map lowerChar).map lowerChar = name.map lowerChar := by
    rw [List.map_map]
    apply List.map_congr_left
    intro c hc
    apply lowerChar_lowerChar
    apply List.all_eq_true.1 hletters
    exact List.mem_map_of_mem (List.mem_map_of_mem hc)
  unfold IsWebScheme at h ⊢
  rwa [hsame] at h

/-- A text that is a web scheme, `://` and a tail in lower case is so as it is. -/
theorem exists_of_map_lowerChar {scheme : List Char}
    (h : cs.map lowerChar = scheme ++ ':' :: '/' :: '/' :: tail) (hscheme : IsWebScheme scheme) :
    ∃ name rest, cs = name ++ ':' :: '/' :: '/' :: rest ∧ IsWebScheme name ∧
      rest.map lowerChar = tail := by
  have hcolon : IsMark ':' := by decide
  have hslash : IsMark '/' := by decide
  obtain ⟨name, more, rfl, hname, hmore⟩ := List.map_eq_append_iff.1 h
  obtain ⟨c, more, rfl, hc, hmore⟩ := List.map_eq_cons_iff.1 hmore
  obtain ⟨d, more, rfl, hd, hmore⟩ := List.map_eq_cons_iff.1 hmore
  obtain ⟨e, rest, rfl, he, hrest⟩ := List.map_eq_cons_iff.1 hmore
  rw [hcolon.lowerChar_eq_iff] at hc
  rw [hslash.lowerChar_eq_iff] at hd he
  subst hc hd he
  exact ⟨name, rest, rfl, .of_map_lowerChar (hname ▸ hscheme), hrest⟩

/-- The authority of the text after `//`. -/
def authority (cs : List Char) : List Char :=
  authorityOf ((cs.dropWhile (· != '/')).drop 2)

theorem authority_web (h : IsWebScheme name) (tail : List Char) :
    authority (name ++ ':' :: '/' :: '/' :: tail) = authorityOf tail := by
  have hall : ∀ c ∈ name, (c != '/') = true := by
    intro c hc
    rw [bne_iff_ne]
    rintro rfl
    exact absurd (h.isAlpha hc) (by decide)
  rw [authority, List.dropWhile_append_of_pos hall]
  rfl

/-- `cs` has no control character, no `#` in its authority, and a `PlainUser`. -/
structure Requestable (cs : List Char) : Prop where
  no_control : ∀ c ∈ cs, isControl c = false
  no_fragment : '#' ∉ authority cs
  plain_user : PlainUser (authority cs)

/-- `parse? true` reads a web address with a fragment if it is `Requestable`, and fails otherwise.
-/
theorem parse?_web_append {rest fragment : List Char} (h : IsWebScheme name)
    (hhash : fragment ≠ [] → fragment.head? = some '#') (hescapes : escapesWell fragment = true)
    (hhost : (host? (authorityOf (rest.map lowerChar))).isSome = true)
    (hpath : escapesWell (pathOf (rest.map lowerChar)) = true)
    (hcs : cs = name ++ ':' :: '/' :: '/' :: (rest ++ fragment)) :
    (Requestable cs → ∃ url, parse? true (String.ofList cs) = some url ∧ url.isWeb = true) ∧
      (¬ Requestable cs → parse? true (String.ofList cs) = none) := by
  have hauthority : authority cs = authorityOf (rest ++ fragment) := by rw [hcs, authority_web h]
  rw [authorityOf_map_lowerChar] at hhost
  rw [pathOf_map_lowerChar, escapesWell_map_lowerChar] at hpath
  subst hcs
  by_cases hfragment : '#' ∈ authorityOf (rest ++ fragment)
  · refine ⟨fun hrequest => absurd (hauthority ▸ hfragment) hrequest.no_fragment, fun _ => ?_⟩
    exact parse?_web_eq_none h (.inr (host?_eq_none_of_hash hfragment))
  obtain ⟨hsame, hpath⟩ := escapesWell_pathOf_append hescapes hhash hfragment hpath
  constructor
  · intro hrequest
    have hplain : PlainUser (authorityOf rest) := by
      rw [← hsame, ← hauthority]
      exact hrequest.plain_user
    apply exists_parse?_web h hrequest.no_control _ hpath
    rw [hsame]
    exact (host?_isSome_iff _).2 ⟨hhost, hplain⟩
  · intro hrequest
    apply parse?_web_eq_none h
    by_contra hgood
    rw [not_or, not_exists] at hgood
    obtain ⟨hcontrol, hfound⟩ := hgood
    have hsome : (host? (authorityOf (rest ++ fragment))).isSome = true :=
      Option.isSome_iff_ne_none.2 hfound
    apply hrequest
    refine ⟨?_, hauthority ▸ hfragment, hauthority ▸ ((host?_isSome_iff _).1 hsome).2⟩
    intro c hc
    rw [Bool.eq_false_iff]
    exact fun htrue => hcontrol c ⟨hc, htrue⟩

/-- **Requests for web addresses.**  If `parseReference?` reads `lower s` as a web address with a
host, `parse? true` reads `s` if that is `Requestable`, and fails otherwise. -/
theorem parse?_request {s : String} (hread : parseReference? (lower s) = some url)
    (hweb : url.isWeb = true) (hhost : url.host ≠ "") :
    (Requestable s.toList → ∃ url', parse? true s = some url' ∧ url'.isWeb = true) ∧
      (¬ Requestable s.toList → parse? true s = none) := by
  have hhash : IsMark '#' := by decide
  obtain ⟨cs, rfl⟩ : ∃ cs, s = String.ofList cs := ⟨s.toList, s.ofList_toList.symm⟩
  rw [String.toList_ofList]
  rw [parseReference?, lower, String.toList_ofList, String.toList_ofList, Option.bind_eq_some_iff]
    at hread
  obtain ⟨found, hparse, hfragment⟩ := hread
  dsimp only at hfragment
  split_ifs at hfragment with hescapes
  cases hfragment
  rw [hhash.takeWhile_map_lowerChar] at hparse
  rw [hhash.dropWhile_map_lowerChar, ← List.map_drop, escapesWell_map_lowerChar] at hescapes
  -- the text is the address that was read and a fragment
  obtain ⟨scheme, tail, hlower, hscheme⟩ := exists_of_parse?_web hparse hweb hhost
  rw [hlower] at hparse
  obtain ⟨hfound, hpath⟩ := of_parse?_web hscheme hparse
  obtain ⟨name, rest, hbase, hname, rfl⟩ := exists_of_map_lowerChar hlower hscheme
  have hcs : cs = name ++ ':' :: '/' :: '/' :: (rest ++ cs.dropWhile (· != '#')) := by
    calc cs = cs.takeWhile (· != '#') ++ cs.dropWhile (· != '#') :=
          List.takeWhile_append_dropWhile.symm
      _ = _ := by rw [hbase]; simp
  have hmarked : cs.dropWhile (· != '#') ≠ [] → (cs.dropWhile (· != '#')).head? = some '#' := by
    intro hne
    have hhead := List.head_dropWhile_not (· != '#') hne
    rw [List.head?_eq_some_head hne]
    simpa using hhead
  have hwhole : escapesWell (cs.dropWhile (· != '#')) = true := by
    cases hdrop : cs.dropWhile (· != '#') with
    | nil => rfl
    | cons d more =>
      rw [hdrop] at hmarked hescapes
      have hd : d = '#' := by simpa using hmarked (by simp)
      rw [hd, escapesWell_cons (by decide)]
      exact hescapes
  exact parse?_web_append hname hmarked hwhole hfound hpath hcs

end SchemaPress.Url
