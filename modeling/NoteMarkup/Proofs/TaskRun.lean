import NoteMarkup.Task

/-! Reasoning about tasks on a host whose answers depend on a state. A task gives a result and leaves
a state, or it fails. `Faults` is about the failures that no part of the library reports under a name
of its own: a task meets one in its first part, or in the second after the first has given a result. -/

namespace NoteMarkup.Task

open LogSetup (Setup)

variable {σ : Type} {α β : Type}

/-- How a task ends when it starts in a state. -/
def outcome (x : Task (StateM σ) α) (setup : Setup) (s : σ) : Except Error α × σ :=
  ((x.run setup).run).run s

/-- A task gives a result and leaves a state. -/
def Gives (x : Task (StateM σ) α) (setup : Setup) (s : σ) (a : α) (t : σ) : Prop :=
  outcome x setup s = (.ok a, t)

/-- A task fails with an error. -/
def Fails (x : Task (StateM σ) α) (setup : Setup) (s : σ) (e : Error) : Prop :=
  ∃ t, outcome x setup s = (.error e, t)

/-- A task fails without a report. -/
def Faults (x : Task (StateM σ) α) (setup : Setup) (s : σ) (f : Fault) : Prop :=
  Fails x setup s (.fault f)

variable {x : Task (StateM σ) α} {k : α → Task (StateM σ) β} {setup : Setup} {s t : σ} {a : α}
  {b : β} {e : Error} {f : Fault}

theorem outcome_bind (x : Task (StateM σ) α) (k : α → Task (StateM σ) β) (setup : Setup) (s : σ) :
    outcome (x >>= k) setup s =
      match outcome x setup s with
      | (.ok a, t) => outcome (k a) setup t
      | (.error e, t) => (.error e, t) := by
  change (ExceptT.bindCont (fun a => (k a).run setup) (outcome x setup s).1).run
    (outcome x setup s).2 = _
  rcases outcome x setup s with ⟨r, t⟩
  cases r <;> rfl

theorem host_bind (x : StateM σ α) (k : α → StateM σ β) (s : σ) :
    (x >>= k).run s = (k (x.run s).1).run (x.run s).2 := rfl

@[simp] theorem faults_bind :
    Faults (x >>= k) setup s f ↔
      Faults x setup s f ∨ ∃ a t, Gives x setup s a t ∧ Faults (k a) setup t f := by
  unfold Faults Fails Gives
  rw [outcome_bind]
  rcases outcome x setup s with ⟨r, t⟩
  cases r with
  | error e => simp
  | ok a =>
      constructor
      · intro h
        exact .inr ⟨a, t, rfl, h⟩
      · rintro (⟨u, h⟩ | ⟨c, u, same, h⟩)
        · cases (Prod.mk.inj h).1
        · cases same
          exact h

@[simp] theorem gives_bind :
    Gives (x >>= k) setup s b t ↔ ∃ a u, Gives x setup s a u ∧ Gives (k a) setup u b t := by
  unfold Gives
  rw [outcome_bind]
  rcases outcome x setup s with ⟨r, u⟩
  cases r with
  | error e => simp
  | ok a =>
      constructor
      · intro h
        exact ⟨a, u, rfl, h⟩
      · rintro ⟨c, v, same, h⟩
        cases same
        exact h

theorem Faults.bind (h : Faults x setup s f) : Faults (x >>= k) setup s f :=
  faults_bind.mpr (.inl h)

theorem Gives.faults (first : Gives x setup s a t) (h : Faults (k a) setup t f) :
    Faults (x >>= k) setup s f :=
  faults_bind.mpr (.inr ⟨a, t, first, h⟩)

theorem Gives.bind {u : σ} (first : Gives x setup s a t) (later : Gives (k a) setup t b u) :
    Gives (x >>= k) setup s b u :=
  gives_bind.mpr ⟨a, t, first, later⟩

@[simp] theorem faults_map {g : α → β} : Faults (g <$> x) setup s f ↔ Faults x setup s f := by
  have run : g <$> x = x >>= fun a => pure (g a) := (bind_pure_comp g x).symm
  rw [run, faults_bind]
  constructor
  · rintro (h | ⟨a, t, -, u, h⟩)
    · exact h
    · cases (Prod.mk.inj h).1
  · exact .inl

@[simp] theorem gives_pure {c : α} : Gives (pure c) setup s a t ↔ c = a ∧ s = t := by
  change ((.ok c, s) : Except Error α × σ) = (.ok a, t) ↔ _
  simp

@[simp] theorem gives_throw : ¬Gives (throw e : Task (StateM σ) α) setup s a t := by
  intro h
  cases (Prod.mk.inj h).1

@[simp] theorem gives_onHost {act : StateM σ α} :
    Gives (onHost act) setup s a t ↔ act.run s = (a, t) := by
  constructor
  · intro h
    obtain ⟨same, left⟩ := Prod.mk.inj h
    cases same
    cases left
    rfl
  · intro h
    change ((.ok (act.run s).1, (act.run s).2) : Except Error α × σ) = (.ok a, t)
    rw [h]

@[simp] theorem gives_reach {p : Path} {act : StateM σ (Except String α)} :
    Gives (reach p act) setup s a t ↔ act.run s = (.ok a, t) := by
  unfold reach
  rw [gives_bind]
  constructor
  · rintro ⟨r, u, run, h⟩
    cases r with
    | ok b =>
        obtain ⟨rfl, rfl⟩ := gives_pure.mp h
        exact gives_onHost.mp run
    | error cause => exact absurd h gives_throw
  · intro run
    exact ⟨.ok a, t, gives_onHost.mpr run, gives_pure.mpr ⟨rfl, rfl⟩⟩

@[simp] theorem gives_nameable {p q : Path} :
    Gives (nameable p) setup s q t ↔ p.isNameable = true ∧ p = q ∧ s = t := by
  unfold nameable
  cases p.isNameable with
  | true => simp
  | false => simp

theorem gives_of_nameable {p : Path} (h : p.isNameable = true) : Gives (nameable p) setup s p s :=
  gives_nameable.mpr ⟨h, rfl, rfl⟩

variable [Host (StateM σ)]

@[simp] theorem faults_deliver {r : Log.Record} : ¬Faults (deliver r) setup s f := by
  rintro ⟨t, h⟩
  cases (Prod.mk.inj h).1

@[simp] theorem faults_log {level : Log.Level} {logger text : String} :
    ¬Faults (log level logger text) setup s f := faults_deliver

theorem gives_log (level : Log.Level) (logger text : String) (setup : Setup) (s : σ) :
    ∃ t, Gives (log level logger text) setup s () t := ⟨_, rfl⟩

end NoteMarkup.Task
