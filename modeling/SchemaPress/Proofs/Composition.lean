import SchemaPress.Proofs.Checkpoints

/-!
# Properties of jobs along their parts

A job is put together from results, errors, checkpoints, log events, requests and what is read from
files, by `bind` and `within`.  A property is `Compositional` if it holds of each of these and is
kept by both, so one proof along a job gives every such property of it.  Here there are three:

* a job is `Quiet` if it neither changes files nor asks anything (`compositional_quiet`);
* it is `Steady view` if it changes no file and its result depends on the session only by `view`,
  unless it is cancelled (`compositional_steady`);
* it is `Counted` if it makes some number of checks (`compositional_counted`).

`P post x` says of a compositional property `P` that it holds of `x`, and that a result of `x` is in
the relation `post` with the number of checks.  The first two count nothing: they are `Closed`, and
`Closed.compositional` adds `Returns post`.
-/

namespace SchemaPress.Job

variable {α β γ δ : Type} {view : FileTree → γ} {Reads : String → Prop}

/-! ### Compositional properties -/

/-- A property `P post x` of jobs that can be shown along their parts.  `Reads location` tells which
files a job may read. -/
structure Compositional (Reads : String → Prop)
    (P : {α : Type} → (α → Nat → Prop) → Job α → Prop) : Prop where
  pure {α : Type} {post : α → Nat → Prop} {a : α} (h : post a 0) : P post (pure a)
  throw {α : Type} {post : α → Nat → Prop} (e : Error) : P post (throw e)
  checkpoint : P (fun _ count => count = 1) checkpoint
  logAll (events : List Log.Event) : P (fun _ count => count = 0) (logAll events)
  request (r : Request) : P (fun _ count => count = 0) (request r)
  read {α : Type} {post : α → Nat → Prop} {location : String}
    {f : Except FileError ByteArray → Job α} (h : Reads location) (hf : ∀ c, P post (f c)) :
    P post (get >>= fun s => f (s.files.readAbsolute location))
  within {α : Type} {post : α → Nat → Prop} {x : Job α} (h : P post x) (activity : String) :
    P post (within activity x)
  bind {α β : Type} {post : α → Nat → Prop} {last : β → Nat → Prop} {x : Job α} {f : α → Job β}
    (h : P post x)
    (hf : ∀ a first, post a first → P (fun b next => last b (first + next)) (f a)) :
    P last (x >>= f)
  mono {α : Type} {post weaker : α → Nat → Prop} {x : Job α} (h : P post x)
    (hpost : ∀ a count, post a count → weaker a count) : P weaker x

namespace Compositional

variable {P : {α : Type} → (α → Nat → Prop) → Job α → Prop}

/-- `P` without a relation between result and number of checks. -/
theorem anyhow (hP : Compositional Reads P) {post : α → Nat → Prop} {x : Job α} (h : P post x) :
    P (fun _ _ => True) x :=
  hP.mono h fun _ _ _ => trivial

/-- `P` of a job that begins with `throw`: what follows is never run. -/
theorem throw_bind (hP : Compositional Reads P) {last : β → Nat → Prop} (e : Error)
    (f : α → Job β) : P last (MonadExcept.throw e >>= f) := by
  have hthrow : P (fun _ _ => False) (MonadExcept.throw e : Job α) := hP.throw e
  exact hP.bind hthrow fun _ _ h => h.elim

theorem ofExcept (hP : Compositional Reads P) {ε : Type} (wrap : ε → Error) (r : Except ε α) :
    P (fun a count => r = .ok a ∧ count = 0) (ofExcept wrap r) := by
  cases r with
  | error e => exact hP.throw _
  | ok a => exact hP.pure ⟨rfl, rfl⟩

end Compositional

/-! ### Properties that count nothing -/

/-- Every result `a` of `x` satisfies `post a count` for some `count`. -/
def Returns (post : α → Nat → Prop) (x : Job α) : Prop :=
  ∀ s a, (x.run.run s).1 = .ok a → ∃ count, post a count

theorem Returns.anything (x : Job α) : Returns (fun _ _ => True) x :=
  fun _ _ _ => ⟨0, trivial⟩

/-- A relation that leaves the result open holds of every job. -/
theorem Returns.someCount (x : Job α) (n : Nat) : Returns (fun _ count => count = n) x :=
  fun _ _ _ => ⟨n, rfl⟩

theorem Returns.bind {post : α → Nat → Prop} {last : β → Nat → Prop} {x : Job α} {f : α → Job β}
    (h : Returns post x)
    (hf : ∀ a first, post a first → Returns (fun b next => last b (first + next)) (f a)) :
    Returns last (x >>= f) := by
  intro s b hb
  obtain ⟨a, s₁, hx, hnext⟩ := run_bind_eq_ok (Prod.ext hb rfl)
  obtain ⟨first, hfirst⟩ := h s a (congrArg Prod.fst hx)
  obtain ⟨next, hlast⟩ := hf a first hfirst s₁ b (congrArg Prod.fst hnext)
  exact ⟨first + next, hlast⟩

theorem Returns.within {post : α → Nat → Prop} {x : Job α} (h : Returns post x)
    (activity : String) : Returns post (within activity x) := by
  intro s a ha
  have hx := run_within_eq_ok (Prod.ext ha rfl)
  exact h s a (congrArg Prod.fst hx)

/-- A property `Q x` of jobs that holds of the parts of jobs and is kept by `within` and `bind`. -/
structure Closed (Reads : String → Prop) (Q : {α : Type} → Job α → Prop) : Prop where
  pure {α : Type} (a : α) : Q (pure a)
  throw {α : Type} (e : Error) : Q (throw e : Job α)
  checkpoint : Q checkpoint
  logAll (events : List Log.Event) : Q (logAll events)
  request (r : Request) : Q (request r)
  read {α : Type} {location : String} {f : Except FileError ByteArray → Job α}
    (h : Reads location) (hf : ∀ c, Q (f c)) :
    Q (get >>= fun s => f (s.files.readAbsolute location))
  within {α : Type} {x : Job α} (h : Q x) (activity : String) : Q (within activity x)
  bind {α β : Type} {x : Job α} {f : α → Job β} (h : Q x)
    (hf : ∀ a s, (x.run.run s).1 = .ok a → Q (f a)) : Q (x >>= f)

/-- **A closed property `Q` is compositional**, together with `Returns post`. -/
theorem Closed.compositional {Q : {α : Type} → Job α → Prop} (h : Closed Reads Q) :
    Compositional Reads fun post x => Q x ∧ Returns post x where
  pure {_ _ a} hpost := ⟨h.pure a, fun _ _ hb => ⟨0, Except.ok.inj hb ▸ hpost⟩⟩
  throw e := ⟨h.throw e, nofun⟩
  checkpoint := ⟨h.checkpoint, fun _ _ _ => ⟨1, rfl⟩⟩
  logAll events := ⟨h.logAll events, fun _ _ _ => ⟨0, rfl⟩⟩
  request r := ⟨h.request r, fun _ _ _ => ⟨0, rfl⟩⟩
  read hreads hf := by
    refine ⟨h.read hreads fun c => (hf c).1, fun s a ha => ?_⟩
    rw [run_bind, run_get] at ha
    exact (hf _).2 s a ha
  within hx activity := ⟨h.within hx.1 activity, hx.2.within activity⟩
  bind hx hf := by
    refine ⟨h.bind hx.1 fun a s ha => ?_, hx.2.bind fun a first hfirst => (hf a first hfirst).2⟩
    -- `f a` is only run on a result of `x`, and that has some `first` with `post a first`.
    obtain ⟨first, hfirst⟩ := hx.2 s a ha
    exact (hf a first hfirst).1
  mono hx hpost := ⟨hx.1, fun s a ha => (hx.2 s a ha).imp fun count => hpost a count⟩

/-! ### Quiet jobs -/

/-- `x` changes neither `files` nor `questions`, whether it succeeds or fails. -/
def Quiet (x : Job α) : Prop :=
  ∀ s, (x.run.run s).2.files = s.files ∧ (x.run.run s).2.questions = s.questions

theorem Quiet.checkpoint : Quiet checkpoint := by
  intro s
  rw [run_checkpoint]
  split <;> exact ⟨rfl, rfl⟩

theorem Quiet.bind {x : Job α} {f : α → Job β} (h : Quiet x)
    (hf : ∀ a s, (x.run.run s).1 = .ok a → Quiet (f a)) : Quiet (x >>= f) := by
  intro s
  have hx := h s
  rw [run_bind]
  rcases hrun : x.run.run s with ⟨e | a, s₁⟩
  · rwa [hrun] at hx
  · rw [hrun] at hx
    have ha := hf a s (by rw [hrun]) s₁
    exact ⟨ha.1.trans hx.1, ha.2.trans hx.2⟩

/-- `Quiet` is closed, and a quiet job may read any file. -/
theorem closed_quiet : Closed (fun _ => True) Quiet where
  pure _ _ := ⟨rfl, rfl⟩
  throw _ _ := ⟨rfl, rfl⟩
  checkpoint := .checkpoint
  logAll _ _ := ⟨rfl, rfl⟩
  request _ _ := ⟨rfl, rfl⟩
  read _ hf s := by
    rw [run_bind, run_get]
    exact hf _ s
  within h activity s := by
    rw [run_within]
    exact h s
  bind := .bind

theorem compositional_quiet :
    Compositional (fun _ => True) fun post x => Quiet x ∧ Returns post x :=
  closed_quiet.compositional

/-! ### Steady jobs -/

/-- `x` changes no file, does not set a limit where there is none, and its result depends on `view
s.files` only, unless it is the cancellation. -/
structure Steady (view : FileTree → γ) (x : Job α) : Prop where
  files : ∀ s, (x.run.run s).2.files = s.files
  passes : ∀ s, s.passes = none → (x.run.run s).2.passes = none
  result : ∀ s s₀, s₀.passes = none → view s.files = view s₀.files →
    (x.run.run s).1 = (x.run.run s₀).1 ∨
      ∃ e, (x.run.run s).1 = .error e ∧ e.isCancelled = true

/-- A job that is steady in the view `fun _ => ()` is steady in every view. -/
theorem Steady.anywhere {x : Job α} (h : Steady (fun _ => ()) x) : Steady view x :=
  ⟨h.files, h.passes, fun s s₀ hpasses _ => h.result s s₀ hpasses rfl⟩

/-- A job with one result `r` that changes neither `files` nor `passes` is steady. -/
theorem Steady.of_fixed {x : Job α} {r : Except Error α} (hresult : ∀ s, (x.run.run s).1 = r)
    (hfiles : ∀ s, (x.run.run s).2.files = s.files)
    (hpasses : ∀ s, (x.run.run s).2.passes = s.passes) : Steady view x where
  files := hfiles
  passes s hs := by rw [hpasses, hs]
  result s s₀ _ _ := .inl (by rw [hresult, hresult])

theorem Steady.checkpoint : Steady view checkpoint := by
  refine ⟨fun s => (Quiet.checkpoint s).1, ?_, ?_⟩
  · intro s hpasses
    rw [run_checkpoint, hpasses]
    exact hpasses
  · intro s s₀ hpasses _
    rw [run_checkpoint, run_checkpoint, hpasses]
    split
    · exact .inl rfl
    · exact .inr ⟨_, rfl, rfl⟩
    · exact .inl rfl

theorem Steady.within {x : Job α} (h : Steady view x) (activity : String) :
    Steady view (within activity x) := by
  refine ⟨?_, ?_, ?_⟩
  · intro s
    rw [run_within]
    exact h.files s
  · intro s hpasses
    rw [run_within]
    exact h.passes s hpasses
  · intro s s₀ hpasses hview
    rw [run_within, run_within]
    rcases h.result s s₀ hpasses hview with hsame | ⟨e, he, hcancelled⟩
    · exact .inl (congrArg (Except.mapError _) hsame)
    · refine .inr ⟨.within activity e, ?_, ?_⟩
      · exact congrArg (Except.mapError _) he
      · rwa [Error.isCancelled_within]

theorem Steady.bind {x : Job α} {f : α → Job β} (h : Steady view x)
    (hf : ∀ a s, (x.run.run s).1 = .ok a → Steady view (f a)) : Steady view (x >>= f) := by
  refine ⟨?_, ?_, ?_⟩
  · intro s
    have hx := h.files s
    rw [run_bind]
    rcases hrun : x.run.run s with ⟨e | a, s₁⟩
    · rwa [hrun] at hx
    · rw [hrun] at hx
      exact ((hf a s (by rw [hrun])).files s₁).trans hx
  · intro s hpasses
    have hx := h.passes s hpasses
    rw [run_bind]
    rcases hrun : x.run.run s with ⟨e | a, s₁⟩
    · rwa [hrun] at hx
    · rw [hrun] at hx
      exact (hf a s (by rw [hrun])).passes s₁ hx
  · intro s s₀ hpasses hview
    have hfiles := h.files s
    have hfiles₀ := h.files s₀
    have hpasses₀ := h.passes s₀ hpasses
    have hresult := h.result s s₀ hpasses hview
    rw [run_bind, run_bind]
    rcases hrun : x.run.run s with ⟨r, s₁⟩
    rcases hrun₀ : x.run.run s₀ with ⟨r₀, s₂⟩
    rw [hrun] at hfiles
    rw [hrun₀] at hfiles₀ hpasses₀
    rw [hrun, hrun₀] at hresult
    dsimp only at hfiles hfiles₀ hpasses₀ hresult
    rcases hresult with rfl | ⟨e, rfl, hcancelled⟩
    · -- Both runs go on with the same `a`, and `x` has changed no file in either.
      cases r with
      | error e => exact .inl rfl
      | ok a =>
        have hnext := hf a s (by rw [hrun])
        exact hnext.result s₁ s₂ hpasses₀ (by rw [hfiles, hfiles₀, hview])
    · exact .inr ⟨e, rfl, hcancelled⟩

/-- A steady job may depend on `look s.files`, if `view` determines `look`. -/
theorem Steady.look_bind {look : FileTree → δ} {f : δ → Job α}
    (hlook : ∀ t t', view t = view t' → look t = look t') (hf : ∀ c, Steady view (f c)) :
    Steady view (get >>= fun s => f (look s.files)) := by
  refine ⟨fun s => (hf _).files s, fun s => (hf _).passes s, fun s s₀ hpasses hview => ?_⟩
  have hresult := (hf (look s.files)).result s s₀ hpasses hview
  rw [run_bind, run_bind, run_get, run_get]
  dsimp only
  rwa [hlook _ _ hview] at hresult ⊢

/-- `Steady view` is closed, and a steady job may read the files whose content `view` determines. -/
theorem closed_steady (view : FileTree → γ) :
    Closed (fun location => ∀ t t', view t = view t' →
      t.readAbsolute location = t'.readAbsolute location) (Steady view) where
  pure a := .of_fixed (r := .ok a) (fun _ => rfl) (fun _ => rfl) fun _ => rfl
  throw e := .of_fixed (r := .error e) (fun _ => rfl) (fun _ => rfl) fun _ => rfl
  checkpoint := .checkpoint
  logAll _ := .of_fixed (r := .ok ()) (fun _ => rfl) (fun _ => rfl) fun _ => rfl
  request _ := .of_fixed (r := .ok ()) (fun _ => rfl) (fun _ => rfl) fun _ => rfl
  read hreads hf := .look_bind hreads hf
  within := .within
  bind := .bind

theorem compositional_steady (view : FileTree → γ) :
    Compositional (fun location => ∀ t t', view t = view t' →
      t.readAbsolute location = t'.readAbsolute location)
      fun post x => Steady view x ∧ Returns post x :=
  (closed_steady view).compositional

/-! ### Counted jobs -/

/-- `Counted` is compositional, and a counted job may read any file: `s.limited n` has the files of
`s`. -/
theorem compositional_counted : Compositional (fun _ => True) Counted where
  pure := .pure
  throw := .throw
  checkpoint := .checkpoint
  logAll := .logAll
  request := .request
  read {_ _ location f} _ hf :=
    Counted.files_bind (f := fun t => f (t.readAbsolute location)) fun _ => hf _
  within := .within
  bind := .bind
  mono := .mono

end SchemaPress.Job
