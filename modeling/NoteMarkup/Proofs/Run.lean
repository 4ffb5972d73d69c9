import NoteMarkup.Stage.Basic

/-! Reasoning about the steps of a stage. A step either gives a result or stops at a fault, and both
ways it leaves a state behind. `Yields` is the rule that proofs about stages use: with `stuck` false
it says that the step gives a result, with `stuck` true it says nothing about faults. -/

namespace NoteMarkup

theorem bind_eq_ok {ε α β : Type} {x : Except ε α} {f : α → Except ε β} {b : β} :
    x >>= f = .ok b ↔ ∃ a, x = .ok a ∧ f a = .ok b := by
  cases x with
  | error e => exact ⟨nofun, nofun⟩
  | ok a => exact ⟨fun h => ⟨a, rfl, h⟩, fun ⟨_, rfl, h⟩ => h⟩

namespace Log

theorem run_bind {α β : Type} (x : Logged α) (f : α → Logged β) (log : Records) :
    (x >>= f).run log = (f (x.run log).1).run (x.run log).2 := rfl

/-- The second log is the first with nothing but debug records after it. -/
def AddsDebug (old new : Records) : Prop := ∃ more, new = old ++ more ∧ ∀ e ∈ more, e.level = debug

namespace AddsDebug

theorem refl (log : Records) : AddsDebug log log := ⟨[], by simp⟩

theorem trans {a b c : Records} (h : AddsDebug a b) (h' : AddsDebug b c) : AddsDebug a c := by
  obtain ⟨first, rfl, hfirst⟩ := h
  obtain ⟨second, rfl, hsecond⟩ := h'
  refine ⟨first ++ second, List.append_assoc _ _ _, ?_⟩
  intro e he
  exact (List.mem_append.mp he).elim (hfirst e) (hsecond e)

theorem append_debug (log : Records) (logger text : String) (cause : Option String) :
    AddsDebug log (log ++ [⟨debug, logger, text, cause⟩]) := ⟨_, rfl, by simp⟩

end AddsDebug

end Log

namespace StageM

variable {α β : Type}

/-- The result of a step or the fault that stopped it, and the state that it leaves. -/
def outcome (x : StageM α) (r : Run) : Except Fault α × Run := x.run.run r

@[simp] theorem outcome_pure (a : α) (r : Run) : (pure a : StageM α).outcome r = (.ok a, r) := rfl

@[simp] theorem outcome_throw (e : Fault) (r : Run) :
    (throw e : StageM α).outcome r = (.error e, r) := rfl

@[simp] theorem outcome_context (r : Run) : context.outcome r = (.ok r.context, r) := rfl

@[simp] theorem outcome_modifyContext (f : Context → Context) (r : Run) :
    (modifyContext f).outcome r = (.ok (), { r with context := f r.context }) := rfl

@[simp] theorem outcome_debug (module text : String) (r : Run) :
    (debug module text).outcome r =
      (.ok (), { r with
        log := r.log ++ [⟨Log.debug, "ofmark.transforms." ++ module, text, none⟩] }) := rfl

@[simp] theorem outcome_ofExcept_ok (a : α) (r : Run) :
    (ofExcept (.ok a)).outcome r = (.ok a, r) := rfl

@[simp] theorem outcome_ofExcept_error (e : Fault) (r : Run) :
    (ofExcept (.error e) : StageM α).outcome r = (.error e, r) := rfl

theorem outcome_bind_ok {x : StageM α} {f : α → StageM β} {r s : Run} {a : α}
    (h : x.outcome r = (.ok a, s)) : (x >>= f).outcome r = (f a).outcome s := by
  change (x >>= f) r = f a s
  change x r = (.ok a, s) at h
  simp only [bind, ExceptT.bind, ExceptT.mk, StateT.bind, h, ExceptT.bindCont]

theorem outcome_bind_error {x : StageM α} {f : α → StageM β} {r s : Run} {e : Fault}
    (h : x.outcome r = (.error e, s)) : (x >>= f).outcome r = (.error e, s) := by
  change (x >>= f) r = (.error e, s)
  change x r = (.error e, s) at h
  simp only [bind, ExceptT.bind, ExceptT.mk, StateT.bind, h, ExceptT.bindCont]
  rfl

theorem map_eq_bind (f : α → β) (x : StageM α) : f <$> x = x >>= fun a => pure (f a) :=
  map_eq_pure_bind f x

/-- A result and the state that it leaves meet `post`, and a fault stops the step only if `stuck`.
Either way the log grows by debug records alone. -/
structure Yields (x : StageM α) (r : Run) (post : α → Run → Prop) (stuck : Prop) : Prop where
  ok : ∀ a s, x.outcome r = (.ok a, s) → post a s
  error : ∀ e s, x.outcome r = (.error e, s) → stuck
  quiet : Log.AddsDebug r.log (x.outcome r).2.log

namespace Yields

variable {x : StageM α} {r : Run} {post post' : α → Run → Prop} {last : β → Run → Prop}
  {stuck : Prop}

protected theorem pure {a : α} (h : post a r) : (pure a : StageM α).Yields r post stuck where
  ok := by rintro _ _ ⟨⟩; exact h
  error := by rintro _ _ ⟨⟩
  quiet := .refl _

protected theorem throw {e : Fault} (h : stuck) : (throw e : StageM α).Yields r post stuck where
  ok := by rintro _ _ ⟨⟩
  error := by rintro _ _ ⟨⟩; exact h
  quiet := .refl _

theorem mono (h : x.Yields r post stuck) (imp : ∀ a s, post a s → post' a s) :
    x.Yields r post' stuck :=
  ⟨fun a s heq => imp a s (h.ok a s heq), h.error, h.quiet⟩

theorem and {more : α → Run → Prop} (h : x.Yields r post stuck) (h' : x.Yields r more True) :
    x.Yields r (fun a s => post a s ∧ more a s) stuck :=
  ⟨fun a s heq => ⟨h.ok a s heq, h'.ok a s heq⟩, h.error, h.quiet⟩

/-- A step that surely gives a result can be skipped. -/
theorem bind_of_outcome {f : α → StageM β} {a : α} {s : Run} (heq : x.outcome r = (.ok a, s))
    (quiet : Log.AddsDebug r.log s.log) (h : (f a).Yields s last stuck) :
    (x >>= f).Yields r last stuck := by
  have same := outcome_bind_ok (f := f) heq
  exact ⟨by rw [same]; exact h.ok, by rw [same]; exact h.error,
    by rw [same]; exact quiet.trans h.quiet⟩

protected theorem bind {f : α → StageM β} (h : x.Yields r post stuck)
    (next : ∀ a s, post a s → (f a).Yields s last stuck) : (x >>= f).Yields r last stuck := by
  have quiet := h.quiet
  rcases hx : x.outcome r with ⟨e | a, s⟩
  · rw [hx] at quiet
    have same := outcome_bind_error (f := f) hx
    refine ⟨?_, fun _ _ _ => h.error e s hx, by rw [same]; exact quiet⟩
    intro b t heq
    rw [same] at heq
    cases heq
  · rw [hx] at quiet
    exact bind_of_outcome hx quiet (next a s (h.ok a s hx))

protected theorem map {f : α → β} (h : x.Yields r (fun a s => last (f a) s) stuck) :
    (f <$> x).Yields r last stuck := by
  rw [map_eq_bind]
  exact h.bind fun _ _ ha => .pure ha

/-- What is known of each step of a list is known of every result. -/
protected theorem mapM {f : α → StageM β} {as : List α} (post : β → Prop)
    (each : ∀ a ∈ as, ∀ r, (f a).Yields r (fun b _ => post b) stuck) :
    (as.mapM f).Yields r (fun bs _ => ∀ b ∈ bs, post b) stuck := by
  induction as generalizing r with
  | nil =>
      rw [List.mapM_nil]
      exact .pure (by simp)
  | cons a as ih =>
      rw [List.mapM_cons]
      refine (each a List.mem_cons_self r).bind fun b s hb => ?_
      refine (ih fun a ha => each a (List.mem_cons_of_mem _ ha)).bind fun bs t hbs => ?_
      exact .pure (List.forall_mem_cons.mpr ⟨hb, hbs⟩)

theorem bind_ofExcept {y : Except Fault α} {f : α → StageM β}
    (ok : ∀ a, y = .ok a → (f a).Yields r last stuck) (error : ∀ e, y = .error e → stuck) :
    (ofExcept y >>= f).Yields r last stuck := by
  cases y with
  | ok a => exact bind_of_outcome (outcome_ofExcept_ok a r) (.refl _) (ok a rfl)
  | error e =>
      have stops : (throw e : StageM α).Yields r (fun _ _ => False) stuck := .throw (error e rfl)
      exact stops.bind nofun

theorem bind_throw {e : Fault} {f : α → StageM β} (h : stuck) :
    ((throw e : StageM α) >>= f).Yields r last stuck :=
  bind_ofExcept (y := .error e) nofun fun _ _ => h

theorem bind_context {f : Context → StageM β} (h : (f r.context).Yields r last stuck) :
    (StageM.context >>= f).Yields r last stuck :=
  bind_of_outcome (outcome_context r) (.refl _) h

theorem bind_debug {module text : String} {f : Unit → StageM β}
    (h : ∀ log, (f ()).Yields { r with log } last stuck) :
    (StageM.debug module text >>= f).Yields r last stuck :=
  bind_of_outcome (outcome_debug module text r) (.append_debug _ _ _ _) (h _)

theorem bind_modifyContext {change : Context → Context} {f : Unit → StageM β}
    (h : (f ()).Yields { r with context := change r.context } last stuck) :
    (StageM.modifyContext change >>= f).Yields r last stuck :=
  bind_of_outcome (outcome_modifyContext change r) (.refl _) h

/-- A step that cannot stop gives a result. -/
theorem exists_ok (h : x.Yields r post False) : ∃ a s, x.outcome r = (.ok a, s) ∧ post a s := by
  rcases hx : x.outcome r with ⟨e | a, s⟩
  · exact (h.error e s hx).elim
  · exact ⟨a, s, rfl, h.ok a s hx⟩

end Yields

/-- The step ends in one way, whatever state it starts in. -/
def Steady (x : StageM α) (result : Except Fault α) : Prop := ∀ r, (x.outcome r).1 = result

namespace Steady

theorem unique {x : StageM α} {result other : Except Fault α} (h : x.Steady result)
    (h' : x.Steady other) : result = other :=
  (h default).symm.trans (h' default)

protected theorem pure (a : α) : (pure a : StageM α).Steady (.ok a) := fun _ => rfl

protected theorem ofExcept (result : Except Fault α) : (StageM.ofExcept result).Steady result := by
  intro r
  cases result <;> rfl

protected theorem bind {x : StageM α} {f : α → StageM β} {result : Except Fault α}
    {next : α → Except Fault β} (hx : x.Steady result) (hf : ∀ a, (f a).Steady (next a)) :
    (x >>= f).Steady (result >>= next) := by
  intro r
  have first := hx r
  rcases run : x.outcome r with ⟨e | a, s⟩
  · rw [run] at first
    rw [outcome_bind_error run, ← first]
    rfl
  · rw [run] at first
    rw [outcome_bind_ok run, ← first]
    exact hf a s

protected theorem map {x : StageM α} {result : Except Fault α} (f : α → β) (hx : x.Steady result) :
    (f <$> x).Steady (f <$> result) := by
  rw [map_eq_bind, map_eq_pure_bind]
  exact hx.bind fun a => .pure (f a)

/-- A step that always gives some result can be skipped. -/
theorem skip {x : StageM α} {f : α → StageM β} {result : Except Fault β}
    (done : ∀ r, ∃ a s, x.outcome r = (.ok a, s)) (hf : ∀ a, (f a).Steady result) :
    (x >>= f).Steady result := by
  intro r
  obtain ⟨a, s, run⟩ := done r
  rw [outcome_bind_ok run]
  exact hf a s

end Steady

end StageM

end NoteMarkup
