import SchemaPress.Proofs.Session

/-!
# Counting checkpoints

A job that is never cancelled makes some number of checks.  It `Checks` that often if it is the same
job in every session that lets at least so many checks pass, and fails with the cancellation in all
others.

`Counted` says that a job makes some number of checks, whichever session it runs in, and tells what
is known of that number if the job succeeds.  It is proved along the job: `Counted.bind` adds the
checks of both parts.

`x.limited n` is the job `x` with a limit `n` of its own.  What is `Unchecked` makes no checks, so
such a limit passes through it (`Unchecked.limited_bind`, `limited_bind`).
-/

namespace SchemaPress

/-- The session `s` in which at most `n` checks pass. -/
def Session.limited (s : Session) (n : Nat) : Session :=
  { s with passes := some n }

@[simp] theorem Session.files_limited (s : Session) (n : Nat) : (s.limited n).files = s.files := rfl

namespace Job

variable {α β : Type} {x : Job α} {f : α → Job β} {s s₁ : Session} {count more n : Nat}

/-! ### The checks of a job in a session -/

/-- `x` makes `count` checks in `s`.  For `count ≤ n` its run in `s.limited n` is that in `s`, with
`n - count` checks left; for `n < count` it fails with the cancellation. -/
structure Checks (x : Job α) (s : Session) (count : Nat) : Prop where
  passes : (x.run.run s).2.passes = none
  passed : ∀ n, count ≤ n →
    x.run.run (s.limited n) = ((x.run.run s).1, (x.run.run s).2.limited (n - count))
  cancelled : ∀ n < count,
    ∃ e, (x.run.run (s.limited n)).1 = .error e ∧ e.isCancelled = true

theorem Checks.bind_ok (h : Checks x s count) {a : α} (hrun : x.run.run s = (.ok a, s₁))
    (hnext : Checks (f a) s₁ more) : Checks (x >>= f) s (count + more) := by
  have hlimited (n : Nat) (hn : count ≤ n) :
      (x >>= f).run.run (s.limited n) = (f a).run.run (s₁.limited (n - count)) := by
    rw [run_bind, h.passed n hn, hrun]
  refine ⟨?_, fun n hn => ?_, fun n hn => ?_⟩
  · rw [run_bind, hrun]
    exact hnext.passes
  · rw [hlimited n (by omega), hnext.passed (n - count) (by omega), run_bind, hrun, Nat.sub_sub]
  · -- The limit is reached in `x`, or `x` passes and it is reached in `f a`.
    by_cases hfirst : n < count
    · obtain ⟨e, he, hcancelled⟩ := h.cancelled n hfirst
      exact ⟨e, by rw [run_bind_of_error he], hcancelled⟩
    · rw [hlimited n (by omega)]
      exact hnext.cancelled (n - count) (by omega)

theorem Checks.bind_error (h : Checks x s count) {e : Error} (hrun : (x.run.run s).1 = .error e) :
    Checks (x >>= f) s count := by
  refine ⟨?_, fun n hn => ?_, fun n hn => ?_⟩
  · rw [run_bind_of_error hrun]
    exact h.passes
  · have hlimited : (x.run.run (s.limited n)).1 = .error e := by rw [h.passed n hn, hrun]
    rw [run_bind_of_error hlimited, run_bind_of_error hrun, h.passed n hn]
  · obtain ⟨e', he', hcancelled⟩ := h.cancelled n hn
    exact ⟨e', by rw [run_bind_of_error he'], hcancelled⟩

/-! ### Counted jobs -/

/-- `x` makes some number of checks in every session with `passes = none`.  If it succeeds with `a`
after `count` of them, then `post a count`. -/
def Counted (post : α → Nat → Prop) (x : Job α) : Prop :=
  ∀ s, s.passes = none → ∃ count, Checks x s count ∧ ∀ a, (x.run.run s).1 = .ok a → post a count

variable {post : α → Nat → Prop} {last : β → Nat → Prop}

theorem Counted.mono {weaker : α → Nat → Prop} (h : Counted post x)
    (hpost : ∀ a n, post a n → weaker a n) : Counted weaker x := by
  intro s hs
  obtain ⟨count, hchecks, hresult⟩ := h s hs
  exact ⟨count, hchecks, fun a ha => hpost a count (hresult a ha)⟩

theorem Counted.of_unchecked {r : Except Error α} (hrun : ∀ s, x.run.run s = (r, s))
    (hpost : ∀ a, r = .ok a → post a 0) : Counted post x := by
  intro s hs
  refine ⟨0, ⟨?_, fun n _ => ?_, nofun⟩, fun a ha => hpost a ?_⟩
  · rwa [hrun]
  · rw [hrun, hrun, Nat.sub_zero]
  · rwa [hrun] at ha

theorem Counted.pure {a : α} (h : post a 0) : Counted post (pure a : Job α) :=
  .of_unchecked (r := .ok a) (fun _ => rfl) fun _ hb => Except.ok.inj hb ▸ h

theorem Counted.throw (e : Error) : Counted post (throw e : Job α) :=
  .of_unchecked (r := .error e) (fun _ => rfl) nofun

theorem Counted.checkpoint : Counted (fun _ count => count = 1) checkpoint := by
  intro s hs
  refine ⟨1, ⟨?_, fun n hn => ?_, fun n hn => ?_⟩, fun _ _ => rfl⟩
  · rw [run_checkpoint, hs]
    exact hs
  · obtain ⟨n, rfl⟩ := Nat.exists_eq_add_of_le' hn
    rw [run_checkpoint, run_checkpoint, hs]
    rfl
  · obtain rfl : n = 0 := by omega
    exact ⟨.cancelled, by rw [run_checkpoint]; rfl, rfl⟩

theorem Counted.logAll (events : List Log.Event) :
    Counted (fun _ count => count = 0) (logAll events) :=
  fun _ hs => ⟨0, ⟨hs, fun _ _ => rfl, nofun⟩, fun _ _ => rfl⟩

theorem Counted.request (r : Request) : Counted (fun _ count => count = 0) (request r) :=
  fun _ hs => ⟨0, ⟨hs, fun _ _ => rfl, nofun⟩, fun _ _ => rfl⟩

theorem Counted.within (h : Counted post x) (activity : String) :
    Counted post (within activity x) := by
  intro s hs
  obtain ⟨count, hchecks, hpost⟩ := h s hs
  refine ⟨count, ⟨?_, fun n hn => ?_, fun n hn => ?_⟩, fun a ha => hpost a ?_⟩
  · rw [run_within]
    exact hchecks.passes
  · rw [run_within, run_within, hchecks.passed n hn]
  · obtain ⟨e, he, hcancelled⟩ := hchecks.cancelled n hn
    refine ⟨.within activity e, ?_, ?_⟩
    · rw [run_within, he]
      rfl
    · rwa [Error.isCancelled_within]
  · rw [run_within] at ha
    cases hresult : (x.run.run s).1 with
    | error e =>
      rw [hresult] at ha
      cases ha
    | ok b =>
      rw [hresult] at ha
      exact ha

/-- **The checks of `x` and `f a` add up**: if `post a first`, then `f a` has to satisfy `last b
(first + next)`. -/
theorem Counted.bind (h : Counted post x)
    (hf : ∀ a first, post a first → Counted (fun b next => last b (first + next)) (f a)) :
    Counted last (x >>= f) := by
  intro s hs
  obtain ⟨count, hchecks, hpost⟩ := h s hs
  rcases hrun : x.run.run s with ⟨e | a, s₁⟩
  · have herror : (x.run.run s).1 = .error e := by rw [hrun]
    refine ⟨count, hchecks.bind_error herror, fun b hb => ?_⟩
    rw [run_bind_of_error herror] at hb
    cases hb
  · -- `f a` starts without a limit again, so it has a count of its own.
    have hpasses := hchecks.passes
    rw [hrun] at hpasses
    obtain ⟨more, hnext, hlast⟩ := hf a count (hpost a (by rw [hrun])) s₁ hpasses
    refine ⟨count + more, hchecks.bind_ok hrun hnext, fun b hb => hlast b ?_⟩
    rwa [run_bind, hrun] at hb

/-- `f` may depend on `s.files`, since `s.limited n` has the same files. -/
theorem Counted.files_bind {f : FileTree → Job β} (h : ∀ t, Counted last (f t)) :
    Counted last (get >>= fun s => f s.files) := by
  intro s hs
  obtain ⟨count, hchecks, hpost⟩ := h s.files s hs
  exact ⟨count, ⟨hchecks.passes, hchecks.passed, hchecks.cancelled⟩, hpost⟩

/-! ### Jobs with a limit of their own -/

theorem eq_of_run {y : Job α} (h : ∀ s, x.run.run s = y.run.run s) : x = y :=
  funext h

/-- The job `x`, run in `s.limited n` in place of `s`.  It leaves `s.passes` as it is. -/
def limited (x : Job α) (n : Nat) : Job α :=
  ExceptT.mk fun s =>
    ((x.run.run (s.limited n)).1, { (x.run.run (s.limited n)).2 with passes := s.passes })

theorem run_limited (x : Job α) (n : Nat) (s : Session) :
    (x.limited n).run.run s =
      ((x.run.run (s.limited n)).1, { (x.run.run (s.limited n)).2 with passes := s.passes }) := rfl

theorem limited_within (activity : String) (x : Job α) (n : Nat) :
    (within activity x).limited n = within activity (x.limited n) := by
  refine eq_of_run fun s => ?_
  rw [run_limited, run_within, run_within, run_limited]

/-- A job that neither depends on `passes` nor changes it. -/
def Unchecked (x : Job α) : Prop :=
  ∀ s passes, x.run.run { s with passes } = ((x.run.run s).1, { (x.run.run s).2 with passes })

theorem Unchecked.passes_eq (h : Unchecked x) (s : Session) :
    (x.run.run s).2.passes = s.passes := by
  rw [h s s.passes]

theorem Unchecked.limited_eq (h : Unchecked x) (n : Nat) : x.limited n = x := by
  refine eq_of_run fun s => ?_
  rw [run_limited, Session.limited, h s (some n)]
  exact (h s s.passes).symm

theorem Unchecked.pure (a : α) : Unchecked (pure a : Job α) :=
  fun _ _ => rfl

theorem Unchecked.throw (e : Error) : Unchecked (throw e : Job α) :=
  fun _ _ => rfl

theorem Unchecked.bind (h : Unchecked x) (hf : ∀ a, Unchecked (f a)) : Unchecked (x >>= f) := by
  intro s passes
  rw [run_bind, run_bind, h s passes]
  rcases x.run.run s with ⟨e | a, s₁⟩
  · rfl
  · exact hf a s₁ passes

/-- `limited` passes to `f` if `x` makes no checks. -/
theorem Unchecked.limited_bind (h : Unchecked x) (f : α → Job β) (n : Nat) :
    (x >>= f).limited n = x >>= fun a => (f a).limited n := by
  refine eq_of_run fun s => ?_
  have hpasses := h.passes_eq s
  rw [run_limited, run_bind, run_bind, Session.limited, h s (some n)]
  -- `x` hands the limit `n` on to `f a`, and without it the `passes` of `s`.
  rcases hrun : x.run.run s with ⟨e | a, s₁⟩
  · rw [hrun] at hpasses
    dsimp only at hpasses ⊢
    rw [← hpasses]
  · rw [hrun] at hpasses
    dsimp only at hpasses ⊢
    rw [run_limited, hpasses]
    rfl

/-- `limited` stays with `x` if `f` makes no checks. -/
theorem limited_bind (x : Job α) (hf : ∀ a, Unchecked (f a)) (n : Nat) :
    (x >>= f).limited n = x.limited n >>= f := by
  refine eq_of_run fun s => ?_
  rw [run_limited, run_bind, run_bind, run_limited]
  rcases x.run.run (s.limited n) with ⟨e | a, s₁⟩
  · rfl
  · exact (hf a s₁ s.passes).symm

end Job

end SchemaPress
