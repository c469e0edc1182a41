import SchemaPress.OpenApi.Loader
import SchemaPress.Proofs.Session

/-!
# What is loaded

A source serves bytes (`Loader.Serves`): as a file, as a file of a bundle, or as the body of a
successful answer to a request.  `Loader.load` makes a document of them in the same way wherever
they come from: all of them, but for a byte order mark at their start (`load_served`).  Only bytes
from the web can be too many.  They are counted on what is read of them, which is one byte more than
may be taken, so a body is either taken as a whole or refused (`content_of_success`).
-/

namespace SchemaPress.OpenApi

variable {b r : ByteArray} {s : Session} {source : Source} {l : Loader}

/-! ### Byte order marks -/

/-- `r` is `b` without the `byteOrderMark` at its start, if there is one. -/
def IsUnmarked (b r : ByteArray) : Prop :=
  b = byteOrderMark ++ r ∨ (¬ ∃ rest, b = byteOrderMark ++ rest) ∧ r = b

theorem extract_mark_append (r : ByteArray) : (byteOrderMark ++ r).extract 0 3 = byteOrderMark :=
  ByteArray.extract_append_eq_left rfl

theorem withoutMark_append (r : ByteArray) : withoutMark (byteOrderMark ++ r) = r := by
  have hstart : ((byteOrderMark ++ r).extract 0 3).data == byteOrderMark.data := by
    rw [extract_mark_append, beq_self_eq_true]
  rw [withoutMark, if_pos hstart]
  exact ByteArray.extract_append_eq_right rfl ByteArray.size_append

theorem isUnmarked_withoutMark (b : ByteArray) : IsUnmarked b (withoutMark b) := by
  by_cases hmark : ∃ rest, b = byteOrderMark ++ rest
  · obtain ⟨rest, rfl⟩ := hmark
    rw [withoutMark_append]
    exact .inl rfl
  · refine .inr ⟨hmark, ?_⟩
    unfold withoutMark
    rw [if_neg]
    intro hstart
    -- the rest behind three bytes that are the mark would make `b` start with it
    apply hmark
    refine ⟨b.extract 3 b.size, ?_⟩
    have hfirst : b.extract 0 3 = byteOrderMark := ByteArray.ext (beq_iff_eq.1 hstart)
    have hsize : 3 ≤ b.size := by
      have h := congrArg ByteArray.size hfirst
      rw [ByteArray.size_extract] at h
      have hmark : byteOrderMark.size = 3 := rfl
      omega
    rw [← hfirst, ← ByteArray.extract_eq_extract_append_extract 3 (Nat.zero_le 3) hsize,
      ByteArray.extract_zero_size]

/-! ### Answers -/

theorem extract_of_size_le {limit : Nat} (h : b.size ≤ limit) : b.extract 0 limit = b := by
  rw [← Nat.max_eq_left h]
  exact ByteArray.extract_zero_max_size

/-- If `a.broken = none`, `bodyUpTo limit` gives the first `limit` bytes of `a.body`. -/
theorem Answer.bodyUpTo_of_whole {a : Answer} (h : a.broken = none) (limit : Nat) :
    a.bodyUpTo limit = .ok (a.body.extract 0 limit) := by
  unfold bodyUpTo
  rw [h]
  split
  · rename_i hsize
    rw [extract_of_size_le (Nat.le_of_lt hsize)]
  · rfl

/-- **`content` gives the whole body or fails.**  For a code between 200 and 299 it gives `a.body`,
or the error `tooLarge` if `a.body` has more than `33554432` bytes. -/
theorem Answer.content_of_success {a : Answer} (hcode : 200 ≤ a.code ∧ a.code < 300)
    (hwhole : a.broken = none) (url : String) :
    a.content url =
      if 33554432 < a.body.size then .error (.load (.tooLarge url 33554432)) else .ok a.body := by
  have hstatus : ¬ (decide (a.code < 200) || decide (a.code ≥ 300)) = true := by
    rw [Bool.or_eq_true, decide_eq_true_eq, decide_eq_true_eq]
    omega
  have hlimit : maxDocumentSize = 33554432 := rfl
  rw [content, if_neg hstatus, bodyUpTo_of_whole hwhole, hlimit]
  dsimp only
  by_cases hsize : 33554432 < a.body.size
  · -- the byte beyond the limit is read, so the size of what is read gives the excess away
    have hread : 33554432 < (a.body.extract 0 (33554432 + 1)).size := by
      rw [ByteArray.size_extract]
      omega
    rw [if_pos hread, if_pos hsize]
  · have hread : a.body.extract 0 (33554432 + 1) = a.body := extract_of_size_le (by omega)
    rw [hread, if_neg hsize]

theorem Answer.content_of_failure {a : Answer} (hcode : ¬ (200 ≤ a.code ∧ a.code < 300))
    (url : String) : a.content url = .error (.load (.status url a.status)) := by
  have hstatus : (decide (a.code < 200) || decide (a.code ≥ 300)) = true := by
    rw [Bool.or_eq_true, decide_eq_true_eq, decide_eq_true_eq]
    omega
  rw [content, if_pos hstatus]

/-! ### Sources -/

namespace Loader

/-- `source` has the bytes `b`: a file has them in `files`, a name in `l.bundle`, and a URL that
`parseReference?` accepts has them as the body of an answer with a code between 200 and 299 that is
not `broken`. -/
inductive Serves (l : Loader) (files : FileTree) (b : ByteArray) : Source → Prop
  | file {path : String} (hpath : path ≠ "") (hread : files.readAbsolute path = .ok b) :
    Serves l files b ⟨.file, path⟩
  | bundle {bundle : Bundle} {name : String} (hbundle : l.bundle = some bundle)
    (hread : bundle.read name = .ok b) : Serves l files b ⟨.bundle, name⟩
  | url {transport : Transport} {answer : Answer} {url : String}
    (htransport : l.transport = some transport) (hurl : url ≠ "")
    (hrequest : (Url.parseReference? url).isSome = true)
    (hanswer : transport.answer url = some answer)
    (hcode : 200 ≤ answer.code ∧ answer.code < 300) (hwhole : answer.broken = none)
    (hbody : answer.body = b) : Serves l files b ⟨.url, url⟩

/-- `source` is a URL, and `l.transport` gives `answer` for it. -/
def Answers (l : Loader) (source : Source) (answer : Answer) : Prop :=
  source.kind = .url ∧
    ∃ transport, l.transport = some transport ∧ transport.answer source.location = some answer

theorem name_ne_empty_of_read {bundle : Bundle} {name : String} (h : bundle.read name = .ok b) :
    name ≠ "" := by
  rintro rfl
  cases h

/-- If `l.Serves s.files b source`, `fetch` gives `b`, or the error `tooLarge` for a URL and more
than `33554432` bytes. -/
theorem run_fetch_of_serves (h : l.Serves s.files b source) (hgo : s.passes ≠ some 0) :
    ((l.fetch source).run.run s).1 =
      if source.kind = .url ∧ 33554432 < b.size then
        .error (.load (.tooLarge source.location 33554432))
      else .ok b := by
  cases h with
  | @file path hpath hread =>
    have hlocal : ¬ (SourceKind.file = .url ∧ 33554432 < b.size) := fun h => nomatch h.1
    have hnonempty : ¬ path.isEmpty = true := by rwa [String.isEmpty_iff]
    rw [if_neg hlocal]
    unfold fetch fetchFile
    dsimp only
    rw [if_neg hnonempty, Job.run_bind, Job.run_checkpoint_of_ne hgo]
    dsimp only
    rw [Job.run_bind, Job.run_get]
    dsimp only
    rw [Job.run_within, Job.run_ofExcept, hread]
    rfl
  | @bundle bundle name hbundle hread =>
    have hlocal : ¬ (SourceKind.bundle = .url ∧ 33554432 < b.size) := fun h => nomatch h.1
    have hnonempty : ¬ name.isEmpty = true := by
      rw [String.isEmpty_iff]
      exact name_ne_empty_of_read hread
    rw [if_neg hlocal]
    unfold fetch fetchBundled
    dsimp only
    rw [hbundle]
    dsimp only
    rw [if_neg hnonempty, Job.run_bind, Job.run_checkpoint_of_ne hgo]
    dsimp only
    rw [Job.run_within, Job.run_ofExcept, hread]
    rfl
  | @url transport answer url htransport hurl hrequest hanswer hcode hwhole hbody =>
    have hnonempty : ¬ url.isEmpty = true := by rwa [String.isEmpty_iff]
    have hsent : ¬ (Url.parseReference? url).isNone = true := by
      rw [Option.isNone_iff_eq_none]
      exact Option.isSome_iff_ne_none.1 hrequest
    unfold fetch fetchUrl
    dsimp only
    rw [htransport]
    dsimp only
    rw [if_neg hnonempty, if_neg hsent, Job.run_bind, Job.run_request]
    dsimp only
    rw [hanswer]
    dsimp only
    rw [Job.run_ofExcept, answer.content_of_success hcode hwhole, hbody]
    by_cases hsize : 33554432 < b.size
    · rw [if_pos hsize, if_pos ⟨rfl, hsize⟩]
      rfl
    · rw [if_neg hsize, if_neg fun h => hsize h.2]
      rfl

/-- If `l.Serves s.files b source`, `load` gives the document of `withoutMark b`, unless `fetch`
fails or `withoutMark b` is empty. -/
theorem run_load_of_serves (h : l.Serves s.files b source)
    (hgo : ∀ n, s.passes = some n → 2 ≤ n) :
    ((l.load (some source)).run.run s).1 =
      if source.kind = .url ∧ 33554432 < b.size then
        .error (.load (.tooLarge source.location 33554432))
      else if (withoutMark b).isEmpty then .error (.noDocument .empty)
      else .ok ⟨some source, withoutMark b⟩ := by
  have hfirst : s.passes ≠ some 0 := fun hzero => absurd (hgo 0 hzero) (by decide)
  have hsecond : s.passes.map (· - 1) ≠ some 0 := by
    intro hzero
    obtain ⟨n, hn, hone⟩ := Option.map_eq_some_iff.1 hzero
    have htwo := hgo n hn
    omega
  have hfetch := run_fetch_of_serves (s := { s with passes := s.passes.map (· - 1) }) h hsecond
  unfold load
  dsimp only
  rw [Job.run_bind, Job.run_checkpoint_of_ne hfirst]
  dsimp only
  by_cases hlarge : source.kind = .url ∧ 33554432 < b.size
  · rw [if_pos hlarge] at hfetch ⊢
    rw [Job.run_bind_of_error hfetch]
  · rw [if_neg hlarge] at hfetch ⊢
    rw [Job.run_bind]
    rcases hrun : (l.fetch source).run.run { s with passes := s.passes.map (· - 1) } with
      ⟨e | d, s'⟩
    · rw [hrun] at hfetch
      cases hfetch
    · rw [hrun] at hfetch
      cases hfetch
      dsimp only
      rw [Job.run_ofExcept, Document.build]
      split <;> rfl

theorem run_fetch_of_failure {answer : Answer} (h : l.Answers source answer)
    (hcode : ¬ (200 ≤ answer.code ∧ answer.code < 300)) (s : Session) :
    ∃ e, ((l.fetch source).run.run s).1 = .error e := by
  obtain ⟨hkind, transport, htransport, hanswer⟩ := h
  unfold fetch fetchUrl
  rw [hkind, htransport]
  dsimp only
  split
  · exact ⟨_, rfl⟩
  split
  · exact ⟨_, rfl⟩
  rw [Job.run_bind, Job.run_request]
  dsimp only
  rw [hanswer]
  dsimp only
  rw [Job.run_ofExcept, answer.content_of_failure hcode]
  exact ⟨_, rfl⟩

/-- If the code of the answer is not between 200 and 299, `load` fails. -/
theorem run_load_of_failure {answer : Answer} (h : l.Answers source answer)
    (hcode : ¬ (200 ≤ answer.code ∧ answer.code < 300)) (s : Session) :
    ∃ e, ((l.load (some source)).run.run s).1 = .error e := by
  unfold load
  dsimp only
  rw [Job.run_bind]
  rcases Job.checkpoint.run.run s with ⟨e | u, s'⟩
  · exact ⟨e, rfl⟩
  · obtain ⟨e, hfetch⟩ := run_fetch_of_failure h hcode s'
    dsimp only
    rw [Job.run_bind_of_error hfetch]
    exact ⟨e, rfl⟩

/-- **Loading.**  In a session in which two checkpoints are passed, `load` gives the document of the
bytes `r` with `IsUnmarked b r` at `source` if `l.Serves s.files b source`.  It fails if and only if
`r` is empty, or `source` is a URL and `b` has more than `33554432` bytes.  It fails for every
answer whose code is not between 200 and 299. -/
theorem load_served (l : Loader) (source : Source) {s : Session}
    (hgo : ∀ n, s.passes = some n → 2 ≤ n) :
    (∀ b, l.Serves s.files b source → ∃ r, IsUnmarked b r ∧
      ((∃ e, ((l.load (some source)).run.run s).1 = .error e) ↔
        r = .empty ∨ source.kind = .url ∧ 33554432 < b.size) ∧
      (¬ (r = .empty ∨ source.kind = .url ∧ 33554432 < b.size) →
        ∃ d, ((l.load (some source)).run.run s).1 = .ok d ∧ d.raw = r ∧ d.source = some source ∧
          d.location = source.location)) ∧
    (∀ answer, l.Answers source answer → ¬ (200 ≤ answer.code ∧ answer.code < 300) →
      ∃ e, ((l.load (some source)).run.run s).1 = .error e) := by
  refine ⟨fun b hserves => ⟨withoutMark b, isUnmarked_withoutMark b, ?_⟩,
    fun answer hanswers hcode => run_load_of_failure hanswers hcode s⟩
  have hempty : withoutMark b = .empty ↔ (withoutMark b).isEmpty = true := by
    rw [ByteArray.isEmpty, beq_iff_eq, ByteArray.size_eq_zero_iff]
  rw [run_load_of_serves hserves hgo, hempty]
  by_cases hlarge : source.kind = .url ∧ 33554432 < b.size
  · rw [if_pos hlarge]
    exact ⟨⟨fun _ => .inr hlarge, fun _ => ⟨_, rfl⟩⟩, fun hgood => absurd (.inr hlarge) hgood⟩
  rw [if_neg hlarge]
  by_cases hnothing : (withoutMark b).isEmpty = true
  · rw [if_pos hnothing]
    exact ⟨⟨fun _ => .inl hnothing, fun _ => ⟨_, rfl⟩⟩, fun hgood => absurd (.inl hnothing) hgood⟩
  · rw [if_neg hnothing]
    refine ⟨⟨?_, ?_⟩, fun _ => ⟨_, rfl, rfl, rfl, rfl⟩⟩
    · rintro ⟨e, he⟩
      cases he
    · rintro (hbad | hbad)
      · exact absurd hbad hnothing
      · exact absurd hbad hlarge

/-- A document after two byte order marks. -/
def markedBytes : ByteArray :=
  ⟨#[0xEF, 0xBB, 0xBF, 0xEF, 0xBB, 0xBF, 0x7B, 0x7D]⟩

/-- A loader with `markedBytes` in its bundle and as the body of an answer. -/
def markedLoader : Loader where
  bundle := some ⟨[("api.json", markedBytes)]⟩
  transport := some ⟨fun _ => some ⟨299, "299 OK", markedBytes, none⟩, false⟩

/-- A session with `markedBytes` in a file, and two checkpoints to pass. -/
def markedSession : Session where
  passes := some 2
  files := { entries := [(["api.json"], .file markedBytes FileTree.readable)] }

theorem serves_marked :
    ∀ source ∈ [Source.mk .file "api.json", ⟨.bundle, "api.json"⟩, ⟨.url, "http://a/api.json"⟩],
      markedLoader.Serves markedSession.files markedBytes source := by
  have hfile : markedSession.files.readAbsolute "api.json" = .ok markedBytes := by
    have hpath : markedSession.files.absolute "api.json" = "/api.json" := by decide +kernel
    have hnames : Path.names "/api.json" = ["api.json"] := by decide +kernel
    rw [FileTree.readAbsolute, hpath, FileTree.read, FileTree.find, if_neg (by decide), hnames,
      show markedSession.files.home = [] from rfl, ite_self]
    rfl
  have hbundle : Bundle.read ⟨[("api.json", markedBytes)]⟩ "api.json" = .ok markedBytes := by
    have hname : Bundle.isName "api.json" = true := by decide +kernel
    rw [Bundle.read, hname]
    rfl
  simp only [List.forall_mem_cons]
  refine ⟨.file (by decide) hfile, .bundle rfl hbundle, ?_, List.forall_mem_nil _⟩
  exact .url rfl (by decide) (by decide +kernel) rfl (by decide) rfl rfl

theorem load_served_marked :
    (∀ n, markedSession.passes = some n → 2 ≤ n) ∧
      ∀ source ∈ [Source.mk .file "api.json", ⟨.bundle, "api.json"⟩, ⟨.url, "http://a/api.json"⟩],
        ∃ d, ((markedLoader.load (some source)).run.run markedSession).1 = .ok d ∧
          d.raw = byteOrderMark ++ ⟨#[0x7B, 0x7D]⟩ ∧ d.source = some source := by
  have hgo : ∀ n, markedSession.passes = some n → 2 ≤ n := by
    rintro n ⟨⟩
    exact Nat.le_refl 2
  have hbytes : markedBytes = byteOrderMark ++ (byteOrderMark ++ ⟨#[0x7B, 0x7D]⟩) := rfl
  refine ⟨hgo, fun source hsource => ?_⟩
  obtain ⟨r, hunmarked, -, hload⟩ :=
    (load_served markedLoader source hgo).1 _ (serves_marked source hsource)
  have hr : r = byteOrderMark ++ ⟨#[0x7B, 0x7D]⟩ := by
    rcases hunmarked with hmarked | ⟨hnone, -⟩
    · rw [hbytes] at hmarked
      exact (ByteArray.append_right_inj _).1 hmarked.symm
    · exact absurd ⟨_, hbytes⟩ hnone
  obtain ⟨d, hd, hraw, hplace, -⟩ := hload (by
    rw [hr]
    rintro (hempty | ⟨-, hlarge⟩)
    · cases hempty
    · exact absurd hlarge (by decide))
  exact ⟨d, hd, hraw.trans hr, hplace⟩

end Loader

end SchemaPress.OpenApi
