import Mathlib.Data.String.Basic
import NoteMarkup.Proofs.StageOrder

/-! A registry as an ordered map. A ledger knows for each name the stage that was registered last, and
when the name was first registered since it was last removed. It has no list of stages: the order in
which a registry keeps its stages, and from it the order in which they run, is the order of those
times. A registry and a ledger that are asked the same give the same answers. -/

namespace NoteMarkup

/-- What a ledger knows of a registered name. -/
structure Ledger.Entry where
  since : Nat
  stage : Stage

/-- The registered names, and a clock. -/
structure Ledger where
  entries : String → Option Ledger.Entry
  time : Nat
  loaded : Bool

namespace Ledger

open Registry

/-- A ledger without names. -/
def empty : Ledger := ⟨fun _ => none, 0, false⟩

/-- The stage that was registered last under a name. -/
def stageOf? (l : Ledger) (name : String) : Option Stage := (l.entries name).map (·.stage)

/-- When a name was first registered since it was last removed. -/
def since? (l : Ledger) (name : String) : Option Nat := (l.entries name).map (·.since)

/-- One registered name came before another one. -/
def Earlier (l : Ledger) (a b : String) : Prop :=
  ∃ i j, l.since? a = some i ∧ l.since? b = some j ∧ i < j

/-- Registers a stage. -/
def put (l : Ledger) (s : Stage) : Ledger :=
  { l with
    entries := fun name =>
      if name = s.name then some ⟨(l.since? s.name).getD l.time, s⟩ else l.entries name
    time := l.time + 1 }

/-- Registers a stage if its name is free. -/
def fill (l : Ledger) (s : Stage) : Ledger := if (l.stageOf? s.name).isSome then l else l.put s

/-- Removes a name. -/
def drop (l : Ledger) (name : String) : Ledger :=
  { l with entries := fun n => if n = name then none else l.entries n }

/-- Removes every name. -/
def clear (l : Ledger) : Ledger := ⟨fun _ => none, l.time, false⟩

/-- Registers what plugins declare. A plugin that cannot be loaded, or that declares no stage, is
skipped. -/
def discover (l : Ledger) (installed : List Plugin) : Ledger :=
  (Plugin.declared installed).1.foldl put l

/-- The built-in stages fill the names that are free, and the plugins are looked for. -/
def load (l : Ledger) (installed : List Plugin) : Ledger :=
  if l.loaded then l
  else { discover (Stage.builtin.foldl fill l) installed with
         loaded := (Plugin.declared installed).2.isNone }

/-- The ledger of a registry that has just been loaded. -/
def builtin : Ledger := empty.load []

/-- The stages that run under options, in the order in which they run. -/
structure Order (l : Ledger) (o : Options) (ss : List Stage) : Prop where
  mem : ∀ s, s ∈ ss ↔ l.stageOf? s.name = some s ∧ s.isEnabled o = true
  sorted : ss.Pairwise fun s t =>
    s.priority < t.priority ∨ s.priority = t.priority ∧ l.Earlier s.name t.name

/-- The answer to an access. -/
def Answers (l : Ledger) : Access → Except Refusal Answer → Prop
  | .register _, a => a = .ok .done
  | .unregister name, a => a = .ok (.flag (l.stageOf? name).isSome)
  | .has name, a => a = .ok (.flag (l.stageOf? name).isSome)
  | .get name, a => a = ((l.stageOf? name).map fun s => .ok (.stage s)).getD (.error (.unknown name))
  | .names, a => ∃ ns, a = .ok (.names ns) ∧ ns.Pairwise (· < ·) ∧
      ∀ name, name ∈ ns ↔ (l.stageOf? name).isSome = true
  | .enabled o, a => ∃ ss, a = .ok (.stages ss) ∧ l.Order o ss

/-- The ledger after an access. -/
def after (l : Ledger) : Access → Ledger
  | .register s => l.put s
  | .unregister name => l.drop name
  | _ => l

/-- The answer to a request, and the ledger after it. -/
inductive Reacts (l : Ledger) (installed : List Plugin) :
    Request → Except Refusal Answer → Ledger → Prop where
  | access {a : Access} {b : Except Refusal Answer} (ready : (l.load installed).loaded = true)
      (answer : (l.load installed).Answers a b) :
      Reacts l installed (.access a) b ((l.load installed).after a)
  | refuse {a : Access} {f : DeclarationFault} (unready : l.loaded = false)
      (faulty : (Plugin.declared installed).2 = some f) :
      Reacts l installed (.access a) (.error (.declaration f)) (l.load installed)
  | discover (sound : (Plugin.declared installed).2 = none) :
      Reacts l installed .discover (.ok (.count (Plugin.declared installed).1.length))
        (l.discover installed)
  | stumble {f : DeclarationFault} (faulty : (Plugin.declared installed).2 = some f) :
      Reacts l installed .discover (.error (.declaration f)) (l.discover installed)
  | clear : Reacts l installed .clear (.ok .done) l.clear

/-- The answers to requests one after the other, and the ledger after them. -/
inductive Replays : Ledger → List (List Plugin × Request) → List (Except Refusal Answer) → Ledger →
    Prop where
  | nil (l : Ledger) : Replays l [] [] l
  | cons {l m k : Ledger} {installed : List Plugin} {q : Request} {a : Except Refusal Answer}
      {qs : List (List Plugin × Request)} {as : List (Except Refusal Answer)}
      (first : l.Reacts installed q a m) (later : Replays m qs as k) :
      Replays l ((installed, q) :: qs) (a :: as) k

/-! ### Lists of stages that follow a ledger -/

/-- A list holds the stages of the ledger in the order of their names' times. -/
structure Keeps (l : Ledger) (stages : List Stage) : Prop where
  stageOf? : ∀ name, Registry.stageOf? stages name = l.stageOf? name
  ordered : (namesOf stages).Pairwise l.Earlier
  past : ∀ name i, l.since? name = some i → i < l.time

variable {l : Ledger} {stages stages' : List Stage} {s : Stage} {name : String}

theorem since?_isSome : (l.since? name).isSome = (l.stageOf? name).isSome := by
  simp [since?, Ledger.stageOf?]

theorem since?_put (l : Ledger) (s : Stage) (name : String) :
    (l.put s).since? name =
      if name = s.name then some ((l.since? s.name).getD l.time) else l.since? name := by
  change (if name = s.name then some _ else l.entries name).map (·.since) = _
  split <;> rfl

theorem stageOf?_put (l : Ledger) (s : Stage) (name : String) :
    (l.put s).stageOf? name = if name = s.name then some s else l.stageOf? name := by
  change (if name = s.name then some _ else l.entries name).map (·.stage) = _
  split <;> rfl

theorem since?_drop (l : Ledger) (gone name : String) :
    (l.drop gone).since? name = if name = gone then none else l.since? name := by
  change (if name = gone then none else l.entries name).map (·.since) = _
  split <;> rfl

theorem stageOf?_drop (l : Ledger) (gone name : String) :
    (l.drop gone).stageOf? name = if name = gone then none else l.stageOf? name := by
  change (if name = gone then none else l.entries name).map (·.stage) = _
  split <;> rfl

theorem Earlier.ne {a b : String} (h : l.Earlier a b) : a ≠ b := by
  obtain ⟨i, j, ha, hb, less⟩ := h
  rintro rfl
  rw [ha] at hb
  exact Nat.ne_of_lt less (Option.some.inj hb)

namespace Keeps

theorem nodup (h : l.Keeps stages) : (namesOf stages).Nodup := h.ordered.imp fun e => e.ne

theorem mem_names (h : l.Keeps stages) :
    name ∈ namesOf stages ↔ (l.since? name).isSome = true := by
  rw [since?_isSome, ← h.stageOf?, stageOf?_isSome]

/-- Only the names and the stages under them count. -/
theorem congr (h : l.Keeps stages) (names : namesOf stages' = namesOf stages)
    (stageOf? : ∀ name, Registry.stageOf? stages' name = Registry.stageOf? stages name) :
    l.Keeps stages' := by
  refine ⟨?_, ?_, h.past⟩
  · intro name
    rw [stageOf?, h.stageOf?]
  · rw [names]
    exact h.ordered

/-- A name that is there keeps its place. -/
theorem ordered_replaced (h : l.Keeps stages) (known : s.name ∈ namesOf stages) :
    (namesOf stages).Pairwise (l.put s).Earlier := by
  obtain ⟨k, hk⟩ := Option.isSome_iff_exists.mp (h.mem_names.mp known)
  have same : (l.put s).since? = l.since? := by
    funext name
    rw [since?_put, hk]
    split
    · next named => rw [named, hk]; rfl
    · rfl
  refine h.ordered.imp ?_
  intro a b earlier
  unfold Earlier
  rw [same]
  exact earlier

/-- A new name comes last. -/
theorem ordered_appended (h : l.Keeps stages) (new : s.name ∉ namesOf stages) :
    (namesOf stages ++ [s.name]).Pairwise (l.put s).Earlier := by
  have unknown : l.since? s.name = none := by
    have absent := mt h.mem_names.mpr new
    rwa [Bool.not_eq_true, Option.isSome_eq_false_iff, Option.isNone_iff_eq_none] at absent
  have other {a : String} (ha : a ∈ namesOf stages) : (l.put s).since? a = l.since? a := by
    rw [since?_put, if_neg]
    rintro rfl
    exact new ha
  refine List.pairwise_append.mpr ⟨?_, List.pairwise_singleton _ _, ?_⟩
  · refine h.ordered.imp_of_mem ?_
    intro a b ha hb earlier
    unfold Earlier
    rw [other ha, other hb]
    exact earlier
  · intro a ha b hb
    rw [List.mem_singleton.mp hb]
    obtain ⟨i, hi⟩ := Option.isSome_iff_exists.mp (h.mem_names.mp ha)
    refine ⟨i, l.time, ?_, ?_, h.past a i hi⟩
    · rw [other ha, hi]
    · rw [since?_put, if_pos rfl, unknown]
      rfl

theorem insertStage (h : l.Keeps stages) (s : Stage) :
    (l.put s).Keeps (Registry.insertStage stages s) where
  stageOf? name := by rw [stageOf?_insertStage, stageOf?_put, h.stageOf?]
  ordered := by
    rw [namesOf_insertStage]
    split
    · next known => exact h.ordered_replaced known
    · next new => exact h.ordered_appended new
  past name i hi := by
    rw [since?_put] at hi
    split at hi
    · -- a name that is registered again keeps its time
      cases before : l.since? s.name with
      | none =>
          rw [before] at hi
          cases hi
          exact Nat.lt_succ_self _
      | some j =>
          rw [before] at hi
          cases hi
          exact Nat.lt_succ_of_lt (h.past _ _ before)
    · exact Nat.lt_succ_of_lt (h.past name i hi)

theorem fillStage (h : l.Keeps stages) (s : Stage) :
    (l.fill s).Keeps (Registry.fillStage stages s) := by
  unfold fill
  by_cases known : s.name ∈ namesOf stages
  · rw [if_pos (by rw [← since?_isSome]; exact h.mem_names.mp known)]
    refine h.congr ?_ ?_
    · rw [namesOf_fillStage, if_pos known]
    · intro name
      rw [stageOf?_fillStage, if_neg fun free => free.2 known]
  · rw [if_neg (by rw [← since?_isSome]; exact mt h.mem_names.mpr known)]
    refine (h.insertStage s).congr ?_ ?_
    · rw [namesOf_fillStage, namesOf_insertStage]
    · intro name
      rw [stageOf?_fillStage, stageOf?_insertStage]
      simp only [known, not_false_eq_true, and_true]

theorem remove (h : l.Keeps stages) (gone : String) :
    (l.drop gone).Keeps (stages.filter fun s => s.name != gone) where
  stageOf? name := by rw [stageOf?_remove, stageOf?_drop, h.stageOf?]
  ordered := by
    rw [namesOf_remove]
    refine (h.ordered.filter _).imp_of_mem ?_
    intro a b ha hb earlier
    have ha : a ≠ gone := by simpa using (List.mem_filter.mp ha).2
    have hb : b ≠ gone := by simpa using (List.mem_filter.mp hb).2
    unfold Earlier
    rw [since?_drop, since?_drop, if_neg ha, if_neg hb]
    exact earlier
  past name i hi := by
    rw [since?_drop] at hi
    split at hi
    · cases hi
    · exact h.past name i hi

theorem of_none {l : Ledger} (h : l.entries = fun _ => none) : l.Keeps [] where
  stageOf? name := by
    rw [Ledger.stageOf?, h]
    rfl
  ordered := List.Pairwise.nil
  past name i hi := by
    rw [since?, h] at hi
    cases hi

theorem insertAll (h : l.Keeps stages) (ss : List Stage) :
    (ss.foldl put l).Keeps (ss.foldl Registry.insertStage stages) := by
  induction ss generalizing l stages with
  | nil => exact h
  | cons s ss ih => exact ih (h.insertStage s)

theorem fillAll (h : l.Keeps stages) (ss : List Stage) :
    (ss.foldl fill l).Keeps (ss.foldl Registry.fillStage stages) := by
  induction ss generalizing l stages with
  | nil => exact h
  | cons s ss ih => exact ih (h.fillStage s)

theorem discover (h : l.Keeps stages) (installed : List Plugin) :
    (l.discover installed).Keeps
      ((Plugin.declared installed).1.foldl Registry.insertStage stages) :=
  h.insertAll _

theorem withLoaded (h : l.Keeps stages) (loaded : Bool) :
    ({ l with loaded } : Ledger).Keeps stages := ⟨h.stageOf?, h.ordered, h.past⟩

/-! ### What a registry answers -/

theorem order (h : l.Keeps stages) (loaded : Bool) (o : Options) :
    l.Order o (enabledStages ⟨stages, loaded⟩ o) where
  mem s := by
    rw [mem_enabledStages, mem_iff_stageOf? h.nodup, h.stageOf?]
  sorted := pairwise_enabledStages h.ordered o

theorem names (h : l.Keeps stages) (loaded : Bool) :
    (Registry.names ⟨stages, loaded⟩).Pairwise (· < ·) ∧
      ∀ name, name ∈ Registry.names ⟨stages, loaded⟩ ↔ (l.stageOf? name).isSome = true := by
  have same : Registry.names ⟨stages, loaded⟩ = (namesOf stages).mergeSort := rfl
  rw [same]
  refine ⟨?_, ?_⟩
  · have sorted : (namesOf stages).mergeSort.Pairwise fun a b => decide (a ≤ b) = true := by
      refine List.pairwise_mergeSort ?_ ?_ _
      · intro a b c hab hbc
        exact decide_eq_true (String.le_trans (of_decide_eq_true hab) (of_decide_eq_true hbc))
      · intro a b
        simpa using String.le_total a b
    have distinct : (namesOf stages).mergeSort.Nodup :=
      (List.mergeSort_perm (namesOf stages) _).nodup_iff.mpr h.nodup
    refine (sorted.and distinct).imp ?_
    rintro a b ⟨le, ne⟩
    exact lt_of_le_of_ne (of_decide_eq_true le) ne
  · intro name
    rw [List.mem_mergeSort, h.mem_names, since?_isSome]

end Keeps

/-! ### Requests -/

/-- A registry that a ledger describes. -/
structure Follows (l : Ledger) (r : Registry) : Prop where
  keeps : l.Keeps r.stages
  loaded : r.loaded = l.loaded

variable {r : Registry} {log : Log.Records}

theorem load_of_loaded (h : l.loaded = true) (installed : List Plugin) : l.load installed = l := by
  rw [load, if_pos h]

theorem loaded_load (h : l.loaded = false) (installed : List Plugin) :
    (l.load installed).loaded = (Plugin.declared installed).2.isNone := by
  rw [load, if_neg (by simp [h])]

theorem Keeps.load (h : l.Keeps stages) (unloaded : l.loaded = false) (installed : List Plugin) :
    (l.load installed).Keeps
      ((Plugin.declared installed).1.foldl Registry.insertStage (addBuiltin stages)) := by
  rw [Ledger.load, if_neg (by simp [unloaded]), addBuiltin_eq]
  exact ((h.fillAll Stage.builtin).discover installed).withLoaded _

/-- Loading keeps a registry and its ledger together, and tells whether it has succeeded. -/
theorem Follows.load (h : l.Follows r) (installed : List Plugin) (log : Log.Records) :
    (l.load installed).Follows ((r.load installed).run log).1.1 ∧
      match ((r.load installed).run log).1.2 with
      | .ok () => (l.load installed).loaded = true
      | .error f => l.loaded = false ∧ (Plugin.declared installed).2 = some f := by
  rw [load_run, h.loaded]
  cases already : l.loaded with
  | true =>
      rw [load_of_loaded already]
      exact ⟨h, already⟩
  | false =>
      have keeps := h.keeps.load already installed
      have ready := loaded_load already installed
      cases given : (Plugin.declared installed).2 with
      | some f =>
          rw [given] at ready
          exact ⟨⟨keeps, ready.symm⟩, rfl, rfl⟩
      | none =>
          rw [given] at ready
          exact ⟨⟨keeps, ready.symm⟩, ready⟩

theorem Follows.answer (h : l.Follows r) (a : Access) (log : Log.Records) :
    (l.after a).Follows ((r.answer a).run log).1.1 ∧
      l.Answers a ((r.answer a).run log).1.2 := by
  cases a with
  | register s =>
      have run : ((r.answer (.register s)).run log).1 = (((r.add s).run log).1, .ok .done) := rfl
      rw [run, add_run]
      exact ⟨⟨h.keeps.insertStage s, h.loaded⟩, rfl⟩
  | unregister name =>
      have run : ((r.answer (.unregister name)).run log).1 =
          (((r.remove name).run log).1.1, .ok (.flag ((r.remove name).run log).1.2)) := rfl
      rw [run, remove_run]
      refine ⟨⟨h.keeps.remove name, h.loaded⟩, ?_⟩
      rw [h.keeps.stageOf?]
      rfl
  | has name =>
      refine ⟨h, ?_⟩
      change Except.ok (Answer.flag (Registry.stageOf? r.stages name).isSome) = _
      rw [h.keeps.stageOf?]
  | get name =>
      have found := h.keeps.stageOf? name
      change r.find? name = _ at found
      simp only [Registry.answer, found, Answers]
      cases l.stageOf? name with
      | none => exact ⟨h, rfl⟩
      | some s => exact ⟨h, rfl⟩
  | names => exact ⟨h, _, rfl, h.keeps.names r.loaded⟩
  | enabled o => exact ⟨h, _, rfl, h.keeps.order r.loaded o⟩

theorem loaded_putAll (l : Ledger) (ss : List Stage) : (ss.foldl put l).loaded = l.loaded := by
  induction ss generalizing l with
  | nil => rfl
  | cons s ss ih => exact ih (l.put s)

/-- One request. -/
theorem Follows.ask (h : l.Follows r) (installed : List Plugin) (q : Request) (log : Log.Records) :
    ∃ m, l.Reacts installed q ((r.ask installed q).run log).1.2 m ∧
      m.Follows ((r.ask installed q).run log).1.1 := by
  cases q with
  | access a =>
      obtain ⟨follows, ready⟩ := h.load installed log
      simp only [Registry.ask]
      rw [Log.run_bind]
      rcases hx : (r.load installed).run log with ⟨⟨r', f | u⟩, log'⟩
      · rw [hx] at follows ready
        exact ⟨_, .refuse ready.1 ready.2, follows⟩
      · rw [hx] at follows ready
        obtain ⟨next, answers⟩ := follows.answer a log'
        exact ⟨_, .access ready answers, next⟩
  | discover =>
      have discovered := discover_run r installed log
      have run : ((r.ask installed .discover).run log).1 =
          (((r.discover installed).run log).1.1,
            (((r.discover installed).run log).1.2.map .count).mapError .declaration) := rfl
      rw [run, discovered]
      have keeps := h.keeps.discover installed
      have loaded : (l.discover installed).loaded = l.loaded := loaded_putAll _ _
      cases given : (Plugin.declared installed).2 with
      | none => exact ⟨_, .discover given, keeps, h.loaded.trans loaded.symm⟩
      | some f => exact ⟨_, .stumble given, keeps, h.loaded.trans loaded.symm⟩
  | clear => exact ⟨_, .clear, .of_none rfl, rfl⟩

/-- Many requests. -/
theorem Follows.askAll (h : l.Follows r) (asked : List (List Plugin × Request))
    (log : Log.Records) :
    ∃ m, Replays l asked ((r.askAll asked).run log).1.2 m ∧
      m.Follows ((r.askAll asked).run log).1.1 := by
  induction asked generalizing l r log with
  | nil => exact ⟨l, .nil l, h⟩
  | cons first later ih =>
      obtain ⟨installed, q⟩ := first
      obtain ⟨k, reacts, follows⟩ := h.ask installed q log
      obtain ⟨m, replays, last⟩ := ih follows ((r.ask installed q).run log).2
      exact ⟨m, .cons reacts replays, last⟩

theorem builtin_follows : builtin.Follows Registry.builtin := by
  have keeps := (Keeps.of_none (l := empty) rfl).load rfl []
  rw [addBuiltin_nil] at keeps
  exact ⟨keeps, (loaded_load rfl []).symm⟩

/-- Asked the same after the built-in stages have been loaded, a registry and a ledger answer the
same, whatever plugins come and go. The registry then holds one stage for each name, the one that was
registered last. For all options it lists the stages that run by priority, a tie in the order in which
the names were first registered since they were last removed, and the pipeline runs them so. -/
theorem answers_follow_ledger (asked : List (List Plugin × Request)) (log : Log.Records) :
    ∃ l r answers log', (Registry.builtin.askAll asked).run log = ((r, answers), log') ∧
      Replays builtin asked answers l ∧ (namesOf r.stages).Nodup ∧
      (∀ name, r.find? name = l.stageOf? name) ∧
      ∀ o, l.Order o (r.enabledStages o) ∧ ∀ n c log, ∃ started,
        Pipeline.InOrder o (r.enabledStages o) ⟨n, c, started⟩
          ((Pipeline.transform r o n c).run log).1 := by
  obtain ⟨l, replays, follows⟩ := builtin_follows.askAll asked log
  rcases run : (Registry.builtin.askAll asked).run log with ⟨⟨r, answers⟩, log'⟩
  rw [run] at replays follows
  refine ⟨l, r, answers, log', rfl, replays, follows.keeps.nodup, follows.keeps.stageOf?, ?_⟩
  intro o
  refine ⟨follows.keeps.order r.loaded o, ?_⟩
  intro n c log
  exact Pipeline.transform_inOrder r o n c log

end Ledger

end NoteMarkup
