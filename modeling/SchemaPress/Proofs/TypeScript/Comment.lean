import Mathlib.Data.List.Chain
import SchemaPress.Proofs.Model.Properties
import SchemaPress.Proofs.Renderer.OwnLines

/-!
# Comments, and interfaces without them

A comment is made of the words of a text, whatever the text is.  It ends only where it should, and
the only blanks in it are single spaces, so it stays on its line (`isDocComment_commentOf`).

An interface with comments is therefore one without comments in which comments were put between the
parts (`pieces`).  Each of them reaches from its start to the first end of a comment behind it, and
what is left without them is the interface that is written if comments are off.
-/

namespace SchemaPress.Text

variable {a b c : Char} {cs ds : List Char}

/-! ### Characters that are kept apart -/

/-- `b` is never right after `a` in `cs`. -/
def Apart (a b : Char) (cs : List Char) : Prop :=
  cs.IsChain fun c d => ¬ (c = a ∧ d = b)

theorem apart_iff : Apart a b cs ↔ ∀ before after, cs ≠ before ++ a :: b :: after := by
  rw [Apart, List.isChain_iff_forall_rel_of_append_cons_cons]
  constructor
  · intro h before after heq
    exact h heq ⟨rfl, rfl⟩
  · rintro h c d before after heq ⟨rfl, rfl⟩
    exact h before after heq

theorem Apart.cons (h : Apart a b cs) (hc : c = a → cs.head? ≠ some b) : Apart a b (c :: cs) := by
  refine List.isChain_cons.2 ⟨fun d hd => ?_, h⟩
  rintro ⟨hca, rfl⟩
  exact hc hca hd

/-- `Apart` for a concatenation whose second part does not start with `b`. -/
theorem Apart.append (hcs : Apart a b cs) (hds : Apart a b ds) (hhead : ds.head? ≠ some b) :
    Apart a b (cs ++ ds) := by
  refine List.isChain_append.2 ⟨hcs, hds, fun c _ d hd => ?_⟩
  rintro ⟨-, rfl⟩
  exact hhead hd

/-- `Apart` for a concatenation whose first part does not end with `a`. -/
theorem Apart.append_of_getLast? (hcs : Apart a b cs) (hds : Apart a b ds)
    (hlast : cs.getLast? ≠ some a) : Apart a b (cs ++ ds) := by
  refine List.isChain_append.2 ⟨hcs, hds, fun c hc d _ => ?_⟩
  rintro ⟨rfl, -⟩
  exact hlast hc

/-- A text without `b` is `Apart a b`. -/
theorem apart_of_not_mem (h : b ∉ cs) : Apart a b cs := by
  rw [apart_iff]
  rintro before after rfl
  exact h (by simp)

/-! ### Words that are joined -/

theorem ne_nil_of_mem_wordsFrom {word w : List Char} (hw : w ∈ wordsFrom word cs) : w ≠ [] := by
  induction cs generalizing word with
  | nil =>
    rw [wordsFrom] at hw
    split_ifs at hw with hword
    · exact absurd hw List.not_mem_nil
    · rw [List.mem_singleton.1 hw]
      simpa using hword
  | cons c rest ih =>
    rw [wordsFrom] at hw
    split_ifs at hw with _ hword
    · exact ih hw
    · rcases List.mem_cons.1 hw with rfl | hw
      · simpa using hword
      · exact ih hw
    · exact ih hw

theorem wordsFrom_eq_nil_iff {word : List Char} :
    wordsFrom word cs = [] ↔ word = [] ∧ cs.all isBlank = true := by
  induction cs generalizing word with
  | nil =>
    rw [wordsFrom]
    split_ifs with hword <;> simpa using hword
  | cons c rest ih =>
    rw [wordsFrom, List.all_cons]
    split_ifs with hblank hword
    · have hnil : word = [] := by simpa using hword
      simp [ih, hnil, hblank]
    · have hne : word ≠ [] := by simpa using hword
      simp [hne]
    · simp [ih, hblank]

/-- A text has no words if and only if it is blank. -/
theorem words_eq_nil_iff {s : String} : words s = [] ↔ isBlankText s = true := by
  rw [words, List.map_eq_nil_iff, wordsFrom_eq_nil_iff, isBlankText]
  exact and_iff_right rfl

/-- The blanks of `cs` are single spaces between other characters. -/
structure Spaced (cs : List Char) : Prop where
  /-- It does not start with a space. -/
  head_ne : cs.head? ≠ some ' '
  /-- It does not end with a space. -/
  last_ne : cs.getLast? ≠ some ' '
  /-- It has no blanks but spaces. -/
  eq_space : ∀ c ∈ cs, isBlank c = true → c = ' '
  /-- No space follows another. -/
  single : Apart ' ' ' ' cs

theorem isBlank_space : isBlank ' ' = true := by
  decide +kernel

theorem spaced_of_no_blank (h : ∀ c ∈ cs, isBlank c = false) : Spaced cs where
  head_ne hhead := by
    have hblank := h ' ' (List.mem_of_head? hhead)
    rw [isBlank_space] at hblank
    cases hblank
  last_ne hlast := by
    have hblank := h ' ' (List.mem_of_getLast? hlast)
    rw [isBlank_space] at hblank
    cases hblank
  eq_space c hc hblank := by
    rw [h c hc] at hblank
    cases hblank
  single := by
    refine apart_of_not_mem fun hmem => ?_
    have hblank := h ' ' hmem
    rw [isBlank_space] at hblank
    cases hblank

/-- A space between two texts that are `Spaced` and not empty leaves them so. -/
theorem Spaced.append_space (hcs : Spaced cs) (hds : Spaced ds) (hcs_ne : cs ≠ [])
    (hds_ne : ds ≠ []) : Spaced (cs ++ ' ' :: ds) where
  head_ne := by
    rw [List.head?_append_of_ne_nil _ hcs_ne]
    exact hcs.head_ne
  last_ne := by
    rw [List.getLast?_append_cons, List.getLast?_cons_of_ne_nil hds_ne]
    exact hds.last_ne
  eq_space c hc hblank := by
    rcases List.mem_append.1 hc with hc | hc
    · exact hcs.eq_space c hc hblank
    · rcases List.mem_cons.1 hc with rfl | hc
      · rfl
      · exact hds.eq_space c hc hblank
  single := hcs.single.append_of_getLast? (hds.single.cons fun _ => hds.head_ne) hcs.last_ne

/-- Words joined by single spaces are `Spaced`. -/
theorem spaced_intercalate {ws : List String}
    (h : ∀ w ∈ ws, w.toList ≠ [] ∧ ∀ c ∈ w.toList, isBlank c = false) (hne : ws ≠ []) :
    (" ".intercalate ws).toList ≠ [] ∧ Spaced (" ".intercalate ws).toList := by
  induction ws with
  | nil => exact absurd rfl hne
  | cons w rest ih =>
    obtain ⟨hw, hblank⟩ := h w List.mem_cons_self
    cases rest with
    | nil =>
      rw [String.intercalate_singleton]
      exact ⟨hw, spaced_of_no_blank hblank⟩
    | cons v more =>
      obtain ⟨hrest, hspaced⟩ := ih (fun v hv => h v (List.mem_cons_of_mem w hv)) (by simp)
      have htext : (" ".intercalate (w :: v :: more)).toList =
          w.toList ++ ' ' :: (" ".intercalate (v :: more)).toList := by
        rw [String.intercalate_cons_cons, String.toList_append, String.toList_append]
        simp
      rw [htext]
      exact ⟨by simp, (spaced_of_no_blank hblank).append_space hspaced hw hrest⟩

theorem mem_words {s w : String} (h : w ∈ words s) :
    w.toList ≠ [] ∧ ∀ c ∈ w.toList, isBlank c = false := by
  obtain ⟨cs, hcs, rfl⟩ := List.mem_map.1 h
  rw [String.toList_ofList]
  exact ⟨ne_nil_of_mem_wordsFrom hcs,
    isBlank_of_mem_wordsFrom (fun c hc => absurd hc List.not_mem_nil) hcs⟩

end SchemaPress.Text

namespace SchemaPress.TypeScript

open Text

/-! ### Comments -/

/-- `comment` is one comment of a single line, with a text in it. -/
structure IsDocComment (comment : String) : Prop where
  /-- It is `/** `, a body that is not empty, and ` */`. -/
  delimited : ∃ body ≠ [], comment.toList = "/** ".toList ++ (body ++ " */".toList)
  /-- Only its last two characters end a comment. -/
  ends_once : ∀ before after, comment.toList = before ++ '*' :: '/' :: after → after = []
  /-- It has no blanks but spaces. -/
  eq_space : ∀ c ∈ comment.toList, isBlank c = true → c = ' '
  /-- No space follows another. -/
  single : ∀ before after, comment.toList ≠ before ++ ' ' :: ' ' :: after

/-- `guardEnd cs` has no end of a comment. -/
theorem apart_guardEnd (cs : List Char) : Apart '*' '/' (guardEnd cs) := by
  fun_induction guardEnd cs with
  | case1 rest ih => exact ((ih.cons (by simp)).cons (by simp)).cons (by simp)
  | case2 c rest hnot ih =>
    refine ih.cons fun hc hhead => ?_
    -- A slash behind a star would have been guarded.
    rw [head?_guardEnd] at hhead
    obtain ⟨more, rfl⟩ := List.head?_eq_some_iff.1 hhead
    exact hnot more hc rfl
  | case3 => exact .nil

theorem getLast?_guardEnd (cs : List Char) : (guardEnd cs).getLast? = cs.getLast? := by
  fun_induction guardEnd cs with
  | case1 rest ih => simp [List.getLast?_cons, ih]
  | case2 c rest _ ih => simp [List.getLast?_cons, ih]
  | case3 => rfl

theorem mem_guardEnd {c : Char} {cs : List Char} (h : c ∈ guardEnd cs) : c = '\\' ∨ c ∈ cs := by
  fun_induction guardEnd cs with
  | case1 rest ih => grind
  | case2 d rest _ ih => grind
  | case3 => cases h

/-- `guardEnd` leaves a text `Spaced`. -/
theorem spaced_guardEnd {cs : List Char} (h : Spaced cs) : Spaced (guardEnd cs) where
  head_ne := by
    rw [head?_guardEnd]
    exact h.head_ne
  last_ne := by
    rw [getLast?_guardEnd]
    exact h.last_ne
  eq_space c hc hblank := by
    rcases mem_guardEnd hc with rfl | hc
    · have hback : isBlank '\\' = false := by decide +kernel
      rw [hback] at hblank
      cases hblank
    · exact h.eq_space c hc hblank
  single := by
    have hsingle := h.single
    clear h
    fun_induction guardEnd cs with
    | case1 rest ih =>
      have hrest : Apart ' ' ' ' rest := hsingle.suffix ⟨['*', '/'], rfl⟩
      exact (((ih hrest).cons (by simp)).cons (by simp)).cons (by simp)
    | case2 c rest _ ih =>
      have hrest : Apart ' ' ' ' rest := hsingle.suffix ⟨[c], rfl⟩
      refine (ih hrest).cons fun hc hhead => ?_
      rw [head?_guardEnd] at hhead
      exact (List.isChain_cons.1 hsingle).1 ' ' hhead ⟨hc, rfl⟩
    | case3 => exact .nil

/-- A comment without its last character has no end of a comment. -/
theorem apart_open (cs : List Char) :
    Apart '*' '/' ("/** ".toList ++ (guardEnd cs ++ " *".toList)) := by
  have hstars : Apart '*' '/' "** ".toList := apart_of_not_mem (by decide)
  have hstart : Apart '*' '/' "/** ".toList := hstars.cons (by decide)
  have hend : Apart '*' '/' " *".toList := apart_of_not_mem (by decide)
  exact hstart.append_of_getLast? ((apart_guardEnd cs).append hend (by decide)) (by decide)

/-- A guarded text between `/** ` and ` */` is an `IsDocComment`. -/
theorem isDocComment_of_guardEnd {comment : String} {cs : List Char} (hne : cs ≠ [])
    (hspaced : Spaced cs)
    (h : comment.toList = "/** ".toList ++ (guardEnd cs ++ " */".toList)) :
    IsDocComment comment := by
  have hbody : guardEnd cs ≠ [] := by
    intro hnil
    have hhead := head?_guardEnd cs
    rw [hnil] at hhead
    exact hne (List.head?_eq_none_iff.1 hhead.symm)
  have hwhole : Spaced comment.toList := by
    have hmarks : ("/**".toList ++ "*/".toList).any isBlank = false := by decide +kernel
    have hplain : ∀ c ∈ "/**".toList ++ "*/".toList, isBlank c = false :=
      fun c hc => Bool.eq_false_iff.2 (List.any_eq_false.1 hmarks c hc)
    have hstart : Spaced "/**".toList :=
      spaced_of_no_blank fun c hc => hplain c (List.mem_append_left _ hc)
    have hend : Spaced "*/".toList :=
      spaced_of_no_blank fun c hc => hplain c (List.mem_append_right _ hc)
    rw [h]
    exact hstart.append_space ((spaced_guardEnd hspaced).append_space hend hbody (by decide))
      (by decide) (by simp)
  refine ⟨⟨guardEnd cs, hbody, h⟩, fun before after heq => ?_, hwhole.eq_space,
    apart_iff.1 hwhole.single⟩
  by_contra hafter
  have hslash : comment.toList = ("/** ".toList ++ (guardEnd cs ++ " *".toList)) ++ ['/'] := by
    rw [h]
    simp
  have hopen : comment.toList.dropLast = "/** ".toList ++ (guardEnd cs ++ " *".toList) := by
    rw [hslash, List.dropLast_concat]
  have hearly : comment.toList.dropLast = before ++ '*' :: '/' :: after.dropLast := by
    rw [heq]
    simp [List.dropLast_cons_of_ne_nil, hafter]
  exact apart_iff.1 (apart_open cs) before after.dropLast (hopen.symm.trans hearly)

theorem toList_commentOf {text : String} (h : words text ≠ []) :
    (commentOf text).toList =
      "/** ".toList ++ (guardEnd (" ".intercalate (words text)).toList ++ " */".toList) := by
  unfold commentOf
  split
  · contradiction
  · simp only [String.toList_append, String.toList_ofList, List.append_assoc]

/-- **`commentOf text` is empty if `text` is blank, and an `IsDocComment` otherwise.** -/
theorem isDocComment_commentOf (text : String) :
    if isBlankText text then commentOf text = "" else IsDocComment (commentOf text) := by
  by_cases hwords : words text = []
  · rw [if_pos (words_eq_nil_iff.1 hwords), commentOf, hwords]
  · rw [if_neg (mt words_eq_nil_iff.2 hwords)]
    obtain ⟨hne, hspaced⟩ := spaced_intercalate (fun w hw => mem_words hw) hwords
    exact isDocComment_of_guardEnd hne hspaced (toList_commentOf hwords)

/-- `docComment` is empty or an `IsDocComment`. -/
theorem isDocComment_docComment {description : String} (h : docComment description ≠ "") :
    IsDocComment (docComment description) := by
  unfold docComment at h ⊢
  generalize Html.plainText description = text at h ⊢
  have hcomment := isDocComment_commentOf text
  split_ifs at hcomment
  · exact absurd hcomment h
  · exact hcomment

/-- **`skipComment` stops at the end of an `IsDocComment`**, whatever follows it. -/
theorem IsDocComment.skipComment_append {comment : String} (h : IsDocComment comment)
    (rest : List Char) : skipComment (comment.toList ++ rest) = some rest := by
  obtain ⟨body, -, hbody⟩ := h.delimited
  have hopen : comment.toList = ("/** ".toList ++ (body ++ [' '])) ++ ['*', '/'] := by
    rw [hbody]
    simp
  have honce := h.ends_once
  rw [hopen] at honce ⊢
  generalize "/** ".toList ++ (body ++ [' ']) = cs at honce
  induction cs with
  | nil => rfl
  | cons c cs ih =>
    have hstep : c = '*' → (cs ++ ['*', '/'] ++ rest).head? ≠ some '/' := by
      rintro rfl hhead
      cases cs with
      | nil => simp at hhead
      | cons d cs =>
        obtain rfl : d = '/' := by simpa using hhead
        -- An end in front of the last one.
        have hnil := honce [] (cs ++ ['*', '/']) rfl
        simp at hnil
    rw [List.cons_append, List.cons_append, skipComment_cons hstep]
    refine ih fun before after heq => honce (c :: before) after ?_
    rw [List.cons_append, heq, List.cons_append]

/-! ### Interfaces in pieces -/

/-- A piece of the text of an interface. -/
inductive Piece where
  /-- text that does not depend on the option for comments -/
  | code (text : String)
  /-- a comment, with the blanks before and after it that are written with it -/
  | comment (lead text trail : String)
  deriving DecidableEq, Repr

namespace Piece

/-- The text of a piece. -/
def written : Piece → String
  | .code text => text
  | .comment lead text trail => lead ++ text ++ trail

/-- Whether a piece is `code`. -/
def isCode : Piece → Bool
  | .code _ => true
  | .comment .. => false

/-- The comment of a piece, without its blanks. -/
def comment? : Piece → Option String
  | .code _ => none
  | .comment _ text _ => some text

/-- The texts of the pieces, one after the other. -/
def join (pieces : List Piece) : String :=
  String.join (pieces.map written)

end Piece

/-- The piece for `docComment description`, none if that is empty. -/
def docPieces (lead trail description : String) : List Piece :=
  if (docComment description).isEmpty then []
  else [.comment lead (docComment description) trail]

/-- The pieces of a property: its comment and its member. -/
def memberPieces (style : InterfaceStyle) (p : Property) : List Piece :=
  docPieces "\n\t" "" p.constraints.description ++
    [.code ("\n\t" ++ member p (!style.optionalMarkers || p.required))]

/-- The pieces of an interface: its comment, its heading, those of each property and the closing
brace. -/
def pieces (style : InterfaceStyle) (m : Model) : List Piece :=
  docPieces "" "\n" m.metadata.description ++
    ([.code ("interface " ++ m.name ++ r" {")] ++
      (m.properties.toList.flatMap (memberPieces style) ++ [.code "\n\x7d"]))

/-- The description of a model and those of its properties. -/
def descriptions (m : Model) : List String :=
  m.metadata.description :: m.properties.toList.map (·.constraints.description)

namespace Piece

@[simp]
theorem join_append (ps qs : List Piece) : join (ps ++ qs) = join ps ++ join qs := by
  rw [← String.toList_inj]
  simp [join]

@[simp]
theorem join_singleton (p : Piece) : join [p] = p.written := by
  rw [← String.toList_inj]
  simp [join]

@[simp]
theorem filter_code (text : String) : [code text].filter isCode = [code text] :=
  rfl

@[simp]
theorem filterMap_code (text : String) : [code text].filterMap comment? = [] :=
  rfl

theorem join_flatMap {α : Type} (f : α → List Piece) (xs : List α) :
    join (xs.flatMap f) = String.join (xs.map fun x => join (f x)) := by
  rw [← String.toList_inj]
  simp [join, List.flatMap_map, List.flatMap_assoc]

end Piece

section Pieces

variable (lead trail description : String) (style : InterfaceStyle) (m : Model) (p : Property)

theorem join_docPieces :
    Piece.join (docPieces lead trail description) =
      if (docComment description).isEmpty then "" else lead ++ docComment description ++ trail := by
  unfold docPieces
  split_ifs
  · rfl
  · exact Piece.join_singleton _

@[simp]
theorem filter_docPieces : (docPieces lead trail description).filter Piece.isCode = [] := by
  unfold docPieces
  split_ifs <;> rfl

/-- The comments of `docPieces` are `docComment description`, if that is not empty. -/
theorem filterMap_docPieces :
    (docPieces lead trail description).filterMap Piece.comment? =
      [docComment description].filter (· ≠ "") := by
  unfold docPieces
  by_cases h : docComment description = "" <;> simp [h, Piece.comment?]

theorem memberLines_comments :
    memberLines (style.choose (.comments true)) p = Piece.join (memberPieces style p) := by
  rw [memberPieces, Piece.join_append, join_docPieces, Piece.join_singleton]
  simp [memberLines, InterfaceStyle.choose, Piece.written, String.append_assoc]

theorem memberLines_no_comments :
    memberLines (style.choose (.comments false)) p =
      Piece.join ((memberPieces style p).filter Piece.isCode) := by
  rw [memberPieces, List.filter_append, filter_docPieces, List.nil_append, Piece.filter_code,
    Piece.join_singleton]
  simp [memberLines, InterfaceStyle.choose, Piece.written]

/-- With comments, `interface` joins all `pieces`. -/
theorem interface_comments :
    interface (style.choose (.comments true)) m = Piece.join (pieces style m) := by
  rw [pieces, Piece.join_append, Piece.join_append, Piece.join_append, join_docPieces,
    Piece.join_flatMap]
  simp only [← memberLines_comments]
  simp [interface, InterfaceStyle.choose, Piece.written, String.append_assoc]

/-- Without comments, `interface` joins the `pieces` that are code. -/
theorem interface_no_comments :
    interface (style.choose (.comments false)) m =
      Piece.join ((pieces style m).filter Piece.isCode) := by
  rw [pieces, List.filter_append, filter_docPieces, List.nil_append, List.filter_append,
    List.filter_append, List.filter_flatMap, Piece.join_append, Piece.join_append,
    Piece.join_flatMap]
  simp only [← memberLines_no_comments]
  simp [interface, InterfaceStyle.choose, Piece.written, String.append_assoc]

theorem filterMap_memberPieces (ps : List Property) :
    (ps.flatMap (memberPieces style)).filterMap Piece.comment? =
      ((ps.map (·.constraints.description)).map docComment).filter (· ≠ "") := by
  induction ps with
  | nil => rfl
  | cons p ps ih =>
    rw [List.flatMap_cons, List.filterMap_append, ih, memberPieces, List.filterMap_append,
      filterMap_docPieces, Piece.filterMap_code, List.append_nil]
    exact (List.filter_append [_] _).symm

/-- The comments of `pieces` are the `docComment`s of `descriptions` that are not empty, in order.
-/
theorem filterMap_pieces :
    (pieces style m).filterMap Piece.comment? =
      ((descriptions m).map docComment).filter (· ≠ "") := by
  rw [pieces, List.filterMap_append, List.filterMap_append, List.filterMap_append,
    filterMap_docPieces, filterMap_memberPieces, Piece.filterMap_code, Piece.filterMap_code,
    List.nil_append, List.append_nil]
  exact (List.filter_append [_] _).symm

variable {lead trail description style m p} {comment : String}

theorem mem_docPieces {l t : String} (h : .comment l comment t ∈ docPieces lead trail description) :
    l = lead ∧ t = trail ∧ IsDocComment comment := by
  unfold docPieces at h
  split_ifs at h with hempty
  · cases h
  · obtain ⟨hlead, hcomment, htrail⟩ := Piece.comment.inj (List.mem_singleton.1 h)
    rw [hcomment]
    exact ⟨hlead, htrail, isDocComment_docComment (by simpa using hempty)⟩

/-- A comment of `pieces` is an `IsDocComment`, with a line feed after it for the interface, and a
line feed and a tab before it for a member. -/
theorem mem_pieces (h : .comment lead comment trail ∈ pieces style m) :
    IsDocComment comment ∧
      (lead = "" ∧ trail = "\n" ∨ lead = "\n\t" ∧ trail = "") := by
  simp only [pieces, memberPieces, List.mem_append, List.mem_flatMap, List.mem_singleton,
    reduceCtorEq, or_false, false_or] at h
  rcases h with h | ⟨p, -, h⟩
  · obtain ⟨rfl, rfl, hcomment⟩ := mem_docPieces h
    exact ⟨hcomment, .inl ⟨rfl, rfl⟩⟩
  · obtain ⟨rfl, rfl, hcomment⟩ := mem_docPieces h
    exact ⟨hcomment, .inr ⟨rfl, rfl⟩⟩

end Pieces

/-- **Comments do not leak into the code.**  `commentOf text` is empty or an `IsDocComment`.  With
comments, `interface` joins all `pieces`, and without them those that are code.  The comments are
the `docComment`s of `descriptions`, in order, and each ends where `skipComment` stops. -/
theorem interface_erase_comments (text : String) (style : InterfaceStyle) (m : Model) :
    (if isBlankText text then commentOf text = "" else IsDocComment (commentOf text)) ∧
    interface (style.choose (.comments true)) m = Piece.join (pieces style m) ∧
    interface (style.choose (.comments false)) m =
      Piece.join ((pieces style m).filter Piece.isCode) ∧
    (pieces style m).filterMap Piece.comment? =
      ((descriptions m).map docComment).filter (· ≠ "") ∧
    ∀ before lead comment trail after,
      pieces style m = before ++ .comment lead comment trail :: after →
        IsDocComment comment ∧
        (lead = "" ∧ trail = "\n" ∨ lead = "\n\t" ∧ trail = "") ∧
        interface (style.choose (.comments true)) m =
          Piece.join before ++ lead ++ (comment ++ (trail ++ Piece.join after)) ∧
        skipComment (comment ++ (trail ++ Piece.join after)).toList =
          some (trail ++ Piece.join after).toList := by
  refine ⟨isDocComment_commentOf text, interface_comments style m, interface_no_comments style m,
    filterMap_pieces style m, fun before lead comment trail after hpieces => ?_⟩
  have hmem : .comment lead comment trail ∈ pieces style m := by
    rw [hpieces]
    simp
  obtain ⟨hcomment, hblanks⟩ := mem_pieces hmem
  refine ⟨hcomment, hblanks, ?_, ?_⟩
  · rw [interface_comments, hpieces, Piece.join_append, ← List.singleton_append,
      Piece.join_append, Piece.join_singleton]
    simp only [Piece.written, String.append_assoc]
  · rw [String.toList_append]
    exact hcomment.skipComment_append _

/-- Properties with `*/` in a name and in a description. -/
def starredProperties : List Property :=
  [{ name := "/** */", type := .string, constraints := { description := "*/\t*/" } },
    { name := "age", type := .number }]

/-- The model of `starredProperties`. -/
def starredModel : Model where
  name := "Pet"
  metadata := { description := "A **// pet\n*" }
  properties := .ofList starredProperties

theorem pieces_starredModel :
    pieces {} starredModel =
      [.comment "" "/** A **\\// pet * */" "\n", .code r"interface Pet {"] ++
        .comment "\n\t" "/** *\\/ *\\/ */" "" ::
          [.code "\n\t\"/** */\": string", .code "\n\tage: number", .code "\n\x7d"] := by
  have hlist : starredModel.properties.toList = starredProperties :=
    Properties.toList_ofList (by decide)
  rw [pieces, hlist]
  decide +kernel

theorem interface_erase_comments_starredModel :
    IsDocComment "/** *\\/ *\\/ */" ∧
      interface { comments := false } starredModel =
        "interface Pet \x7b\n\t\"/** */\": string\n\tage: number\n\x7d" := by
  have h := interface_erase_comments "" {} starredModel
  refine ⟨(h.2.2.2.2 _ _ _ _ _ pieces_starredModel).1, h.2.2.1.trans ?_⟩
  rw [pieces_starredModel]
  decide +kernel

end SchemaPress.TypeScript
