import SchemaPress.Session

/-!
# Running jobs

What a job does is told by `run.run`: from a session to a result and the session left behind.  The
equations `run_bind`, `run_checkpoint` and so on say it for each way to build a job, and
`run_bind_eq_ok` takes a successful run apart.  Two jobs run `Alongside` each other if they leave
the same session behind and fail alike.
-/

namespace SchemaPress

@[simp] theorem Error.isCancelled_within (activity : String) (e : Error) :
    (Error.within activity e).isCancelled = e.isCancelled := by
  rw [isCancelled, has]
  rfl

namespace Job

variable {α β : Type}

/-! ### Equations -/

@[simp] theorem run_pure (a : α) (s : Session) : (pure a : Job α).run.run s = (.ok a, s) := rfl

@[simp] theorem run_throw (e : Error) (s : Session) :
    (throw e : Job α).run.run s = (.error e, s) := rfl

@[simp] theorem run_get (s : Session) : (get : Job Session).run.run s = (.ok s, s) := rfl

@[simp] theorem run_modify (f : Session → Session) (s : Session) :
    (modify f : Job Unit).run.run s = (.ok (), f s) := rfl

@[simp] theorem run_logAll (events : List Log.Event) (s : Session) :
    (logAll events).run.run s = (.ok (), { s with log := s.log ++ events }) := rfl

@[simp] theorem run_request (r : Request) (s : Session) :
    (request r).run.run s = (.ok (), { s with requests := s.requests ++ [r] }) := rfl

theorem run_bind (x : Job α) (f : α → Job β) (s : Session) :
    (x >>= f).run.run s =
      match x.run.run s with
      | (.ok a, s') => (f a).run.run s'
      | (.error e, s') => (.error e, s') := by
  show (ExceptT.bindCont f (x.run.run s).1).run (x.run.run s).2 = _
  rcases x.run.run s with ⟨a | e, s'⟩ <;> rfl

/-- If `x` fails, so does `x >>= f`, with the same error and session. -/
theorem run_bind_of_error {x : Job α} {s : Session} {e : Error} (h : (x.run.run s).1 = .error e)
    (f : α → Job β) : (x >>= f).run.run s = (.error e, (x.run.run s).2) := by
  rw [run_bind]
  rcases hx : x.run.run s with ⟨e' | a, s'⟩
  · rw [hx] at h
    cases h
    rfl
  · rw [hx] at h
    cases h

theorem run_checkpoint (s : Session) :
    checkpoint.run.run s =
      match s.passes with
      | none => (.ok (), s)
      | some 0 => (.error .cancelled, s)
      | some (n + 1) => (.ok (), { s with passes := some n }) := by
  obtain ⟨passes, files, log, questions, requests⟩ := s
  rcases passes with _ | _ | n <;> rfl

/-- If `s.passes ≠ some 0`, `checkpoint` succeeds, with one pass less. -/
theorem run_checkpoint_of_ne {s : Session} (h : s.passes ≠ some 0) :
    checkpoint.run.run s = (.ok (), { s with passes := s.passes.map (· - 1) }) := by
  rw [run_checkpoint]
  obtain ⟨passes, files, log, questions, requests⟩ := s
  rcases passes with _ | _ | n
  · rfl
  · exact absurd rfl h
  · rfl

theorem run_ofExcept {ε : Type} (wrap : ε → Error) (x : Except ε α) (s : Session) :
    (ofExcept wrap x).run.run s = (x.mapError wrap, s) := by
  cases x <;> rfl

theorem run_within (activity : String) (x : Job α) (s : Session) :
    (within activity x).run.run s =
      ((x.run.run s).1.mapError (Error.within activity), (x.run.run s).2) := by
  unfold within
  rw [ExceptT.run_tryCatch, StateT.run_bind]
  rcases x.run.run s with ⟨e | a, s'⟩ <;> rfl

/-! ### Successful runs -/

/-- **If `x >>= f` succeeds**, so does `x`, and `f` on its result in the session that it left. -/
theorem run_bind_eq_ok {x : Job α} {f : α → Job β} {s s' : Session} {b : β}
    (h : (x >>= f).run.run s = (.ok b, s')) :
    ∃ a s₁, x.run.run s = (.ok a, s₁) ∧ (f a).run.run s₁ = (.ok b, s') := by
  rw [run_bind] at h
  rcases hx : x.run.run s with ⟨e | a, s₁⟩
  · rw [hx] at h
    cases h
  · rw [hx] at h
    exact ⟨a, s₁, rfl, h⟩

/-- If `checkpoint` succeeds, it changes `passes` only. -/
theorem run_checkpoint_eq_ok {s s' : Session} {u : Unit} (h : checkpoint.run.run s = (.ok u, s')) :
    s' = { s with passes := s'.passes } := by
  rw [run_checkpoint] at h
  split at h
  · obtain rfl := (Prod.mk.inj h).2
    rfl
  · cases h
  · obtain rfl := (Prod.mk.inj h).2
    rfl

theorem run_within_eq_ok {activity : String} {x : Job α} {s s' : Session} {a : α}
    (h : (within activity x).run.run s = (.ok a, s')) : x.run.run s = (.ok a, s') := by
  rw [run_within] at h
  rcases hx : x.run.run s with ⟨e | b, s₁⟩
  · rw [hx] at h
    cases h
  · rw [hx] at h
    cases h
    rfl

theorem run_within_ofExcept_eq_ok {ε : Type} {activity : String} {wrap : ε → Error}
    {x : Except ε α} {s s' : Session} {a : α}
    (h : (within activity (ofExcept wrap x)).run.run s = (.ok a, s')) : x = .ok a ∧ s' = s := by
  replace h := run_within_eq_ok h
  rw [run_ofExcept] at h
  cases x with
  | error e => cases h
  | ok b =>
    cases h
    exact ⟨rfl, rfl⟩

end Job

/-! ### Two jobs side by side -/

/-- Both results are the same error, or values related by `S`. -/
inductive Matched {ε α β : Type} (S : α → β → Prop) : Except ε α → Except ε β → Prop
  | error (e : ε) : Matched S (.error e) (.error e)
  | ok {a : α} {b : β} (h : S a b) : Matched S (.ok a) (.ok b)

namespace Job

variable {α β γ δ : Type} {S : α → β → Prop} {T : γ → δ → Prop}

/-- From every session, `x` and `y` lead to the same one, and their results are `Matched S`. -/
def Alongside (S : α → β → Prop) (x : Job α) (y : Job β) : Prop :=
  ∀ s, (x.run.run s).2 = (y.run.run s).2 ∧ Matched S (x.run.run s).1 (y.run.run s).1

theorem Alongside.pure {a : α} {b : β} (h : S a b) :
    Alongside S (pure a : Job α) (pure b : Job β) :=
  fun _ => ⟨rfl, .ok h⟩

theorem Alongside.throw (e : Error) : Alongside S (throw e : Job α) (throw e : Job β) :=
  fun _ => ⟨rfl, .error e⟩

/-- After the same error, any two jobs run `Alongside`. -/
theorem Alongside.throw_bind (e : Error) (f : α → Job γ) (g : β → Job δ) :
    Alongside T (MonadExcept.throw e >>= f) (MonadExcept.throw e >>= g) :=
  fun _ => ⟨rfl, .error e⟩

/-- `Alongside` is kept by `bind`, if the jobs bound run `Alongside` on related values. -/
theorem Alongside.bind {x : Job α} {y : Job β} {f : α → Job γ} {g : β → Job δ}
    (h : Alongside S x y) (hfg : ∀ a b, S a b → Alongside T (f a) (g b)) :
    Alongside T (x >>= f) (y >>= g) := by
  intro s
  obtain ⟨hsession, hresult⟩ := h s
  rw [run_bind, run_bind]
  rcases hx : x.run.run s with ⟨a, s₁⟩
  rcases hy : y.run.run s with ⟨b, s₂⟩
  rw [hx, hy] at hsession hresult
  obtain rfl : s₁ = s₂ := hsession
  cases hresult with
  | error e => exact ⟨rfl, .error e⟩
  | ok hab => exact hfg _ _ hab s₁

/-- After the same job `x`, two jobs run `Alongside` if they do so on every value. -/
theorem Alongside.bind_same (x : Job α) {f : α → Job γ} {g : α → Job δ}
    (hfg : ∀ a, Alongside T (f a) (g a)) : Alongside T (x >>= f) (x >>= g) := by
  have hself : Alongside Eq x x := by
    intro s
    rcases x.run.run s with ⟨e | a, s'⟩
    · exact ⟨rfl, .error e⟩
    · exact ⟨rfl, .ok rfl⟩
  refine hself.bind fun a b hab => ?_
  rw [← hab]
  exact hfg a

end Job

end SchemaPress
