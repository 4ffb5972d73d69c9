import NoteMarkup.Proofs.FirstSeen
import NoteMarkup.Proofs.Run
import NoteMarkup.Registry.Request

/-! What the operations of a registry do to its list of stages. Two views tell a list apart: the names
in their order, and the stage under each name. A registration keeps the place of a name that is there
and puts a new one at the end. Records that are written on the way do not matter to the stages. -/

namespace NoteMarkup

/-- The stages that plugins declare, up to the first faulty declaration. -/
def Plugin.declared : List Plugin → List Stage × Option DeclarationFault
  | [] => ([], none)
  | ⟨_, .stage d⟩ :: ps =>
    match d.toStage with
    | .error f => ([], some f)
    | .ok s => (s :: (declared ps).1, (declared ps).2)
  | _ :: ps => declared ps

namespace Registry

open Log

/-- The names of stages in their order. -/
def namesOf (stages : List Stage) : List String := stages.map (·.name)

/-- The first stage with a name. -/
def stageOf? (stages : List Stage) (name : String) : Option Stage :=
  stages.find? fun s => s.name == name

/-- Adds a stage whose name is free. -/
def fillStage (stages : List Stage) (s : Stage) : List Stage :=
  if stages.any fun t => t.name == s.name then stages else stages ++ [s]

theorem addBuiltin_eq (stages : List Stage) :
    addBuiltin stages = Stage.builtin.foldl fillStage stages := rfl

variable {stages ss : List Stage} {s : Stage} {name : String}

@[simp] theorem namesOf_cons (s : Stage) (ss : List Stage) :
    namesOf (s :: ss) = s.name :: namesOf ss := rfl

theorem stageOf?_cons (t : Stage) (ts : List Stage) (name : String) :
    stageOf? (t :: ts) name = if t.name = name then some t else stageOf? ts name := by
  rw [stageOf?, List.find?_cons]
  by_cases same : t.name = name
  · simp [same]
  · rw [if_neg same, beq_false_of_ne same]
    rfl

theorem stageOf?_append (ss ts : List Stage) (name : String) :
    stageOf? (ss ++ ts) name = (stageOf? ss name).or (stageOf? ts name) := List.find?_append

theorem stageOf?_isSome : (stageOf? stages name).isSome = true ↔ name ∈ namesOf stages := by
  simp only [stageOf?, namesOf, List.find?_isSome, List.mem_map, beq_iff_eq]

theorem stageOf?_eq_none : stageOf? stages name = none ↔ name ∉ namesOf stages := by
  rw [← stageOf?_isSome, Bool.not_eq_true, Option.isSome_eq_false_iff, Option.isNone_iff_eq_none]

theorem any_name : (stages.any fun t => t.name == name) = true ↔ name ∈ namesOf stages := by
  simp only [List.any_eq_true, beq_iff_eq, namesOf, List.mem_map]

/-- A stage of a list without repeated names is the one under its name. -/
theorem stageOf?_of_mem (distinct : (namesOf stages).Nodup) (h : s ∈ stages) :
    stageOf? stages s.name = some s := by
  induction stages with
  | nil => cases h
  | cons t ts ih =>
      rw [namesOf_cons, List.nodup_cons] at distinct
      obtain ⟨new, later⟩ := distinct
      cases h with
      | head => rw [stageOf?_cons, if_pos rfl]
      | tail _ h =>
          have other : t.name ≠ s.name := by
            intro same
            have there : s.name ∈ namesOf ts := List.mem_map_of_mem h
            exact new (same ▸ there)
          rw [stageOf?_cons, if_neg other]
          exact ih later h

theorem mem_iff_stageOf? (distinct : (namesOf stages).Nodup) :
    s ∈ stages ↔ stageOf? stages s.name = some s := by
  constructor
  · intro h
    exact stageOf?_of_mem distinct h
  · intro h
    exact List.mem_of_find?_eq_some h

/-! ### One stage -/

theorem namesOf_insertStage (stages : List Stage) (s : Stage) :
    namesOf (insertStage stages s) =
      if s.name ∈ namesOf stages then namesOf stages else namesOf stages ++ [s.name] := by
  induction stages with
  | nil => rfl
  | cons t ts ih =>
      rw [insertStage]
      by_cases same : t.name = s.name
      · rw [if_pos (beq_iff_eq.mpr same), namesOf_cons, namesOf_cons, same,
          if_pos List.mem_cons_self]
      · have among : s.name ∈ t.name :: namesOf ts ↔ s.name ∈ namesOf ts := by
          simp [Ne.symm same]
        rw [if_neg (by simpa using same), namesOf_cons, namesOf_cons, ih]
        by_cases known : s.name ∈ namesOf ts
        · rw [if_pos known, if_pos (among.mpr known)]
        · rw [if_neg known, if_neg (mt among.mp known), List.cons_append]

theorem stageOf?_insertStage (stages : List Stage) (s : Stage) (name : String) :
    stageOf? (insertStage stages s) name =
      if name = s.name then some s else stageOf? stages name := by
  induction stages with
  | nil =>
      by_cases wanted : name = s.name
      · simp [insertStage, stageOf?, wanted]
      · simp [insertStage, stageOf?, wanted, Ne.symm wanted]
  | cons t ts ih =>
      rw [insertStage, stageOf?_cons]
      by_cases same : t.name = s.name
      · rw [if_pos (beq_iff_eq.mpr same), stageOf?_cons, same]
        by_cases wanted : s.name = name
        · rw [if_pos wanted, if_pos wanted.symm]
        · rw [if_neg wanted, if_neg (Ne.symm wanted), if_neg wanted]
      · rw [if_neg (by simpa using same), stageOf?_cons, ih]
        by_cases wanted : t.name = name
        · rw [if_pos wanted, if_pos wanted, if_neg (fun h => same (wanted.trans h))]
        · rw [if_neg wanted, if_neg wanted]

theorem namesOf_fillStage (stages : List Stage) (s : Stage) :
    namesOf (fillStage stages s) =
      if s.name ∈ namesOf stages then namesOf stages else namesOf stages ++ [s.name] := by
  rw [fillStage]
  by_cases taken : s.name ∈ namesOf stages
  · rw [if_pos (any_name.mpr taken), if_pos taken]
  · rw [if_neg (mt any_name.mp taken), if_neg taken, namesOf, List.map_append]
    rfl

theorem stageOf?_fillStage (stages : List Stage) (s : Stage) (name : String) :
    stageOf? (fillStage stages s) name =
      if name = s.name ∧ s.name ∉ namesOf stages then some s else stageOf? stages name := by
  rw [fillStage]
  by_cases taken : s.name ∈ namesOf stages
  · rw [if_pos (any_name.mpr taken), if_neg (fun h => h.2 taken)]
  · rw [if_neg (mt any_name.mp taken), stageOf?_append, stageOf?_cons]
    by_cases wanted : name = s.name
    · subst wanted
      rw [if_pos rfl, if_pos ⟨rfl, taken⟩, stageOf?_eq_none.mpr taken]
      rfl
    · rw [if_neg (Ne.symm wanted), if_neg (fun free => wanted free.1)]
      exact Option.or_none

theorem namesOf_remove (stages : List Stage) (name : String) :
    namesOf (stages.filter fun s => s.name != name) =
      (namesOf stages).filter fun n => n != name := by
  rw [namesOf, namesOf, List.filter_map]
  rfl

theorem stageOf?_remove (stages : List Stage) (gone name : String) :
    stageOf? (stages.filter fun s => s.name != gone) name =
      if name = gone then none else stageOf? stages name := by
  by_cases wanted : name = gone
  · rw [if_pos wanted, stageOf?_eq_none, namesOf_remove, wanted]
    simp
  · rw [if_neg wanted, stageOf?, List.find?_filter]
    refine congrArg (fun p => stages.find? p) (funext fun s => ?_)
    by_cases same : s.name = name
    · simp [same, wanted]
    · simp [same]

/-! ### Many stages -/

/-- Stages that come one after the other, each at the end unless its name is there, put the names in
the order of their first occurrences. -/
theorem namesOf_foldl {f : List Stage → Stage → List Stage}
    (step : ∀ stages s, namesOf (f stages s) =
      if s.name ∈ namesOf stages then namesOf stages else namesOf stages ++ [s.name])
    (stages ss : List Stage) :
    namesOf (ss.foldl f stages) = namesOf stages ++ fresh (namesOf stages) (namesOf ss) := by
  induction ss generalizing stages with
  | nil => simp [namesOf, fresh]
  | cons s ss ih =>
      rw [List.foldl_cons, ih, step]
      by_cases known : s.name ∈ namesOf stages
      · rw [if_pos known, namesOf_cons, fresh_cons_of_mem known]
      · rw [if_neg known, namesOf_cons, fresh_cons_of_not_mem known, List.append_assoc]
        rfl

theorem namesOf_insertAll (stages ss : List Stage) :
    namesOf (ss.foldl insertStage stages) =
      namesOf stages ++ fresh (namesOf stages) (namesOf ss) :=
  namesOf_foldl namesOf_insertStage stages ss

theorem namesOf_fillAll (stages ss : List Stage) :
    namesOf (ss.foldl fillStage stages) =
      namesOf stages ++ fresh (namesOf stages) (namesOf ss) :=
  namesOf_foldl namesOf_fillStage stages ss

/-- Of several stages with one name, the last registration counts. -/
theorem stageOf?_insertAll (stages ss : List Stage) (name : String) :
    stageOf? (ss.foldl insertStage stages) name =
      (stageOf? ss.reverse name).or (stageOf? stages name) := by
  induction ss generalizing stages with
  | nil => rfl
  | cons s ss ih =>
      rw [List.foldl_cons, ih, stageOf?_insertStage, List.reverse_cons, stageOf?_append,
        Option.or_assoc]
      refine congrArg ((stageOf? ss.reverse name).or ·) ?_
      rw [stageOf?_cons]
      by_cases wanted : s.name = name
      · rw [if_pos wanted, if_pos wanted.symm]
        rfl
      · rw [if_neg wanted, if_neg (Ne.symm wanted)]
        rfl

/-- A stage that fills a free name counts only if no other one had the name. -/
theorem stageOf?_fillAll (stages ss : List Stage) (name : String) :
    stageOf? (ss.foldl fillStage stages) name =
      (stageOf? stages name).or (stageOf? ss name) := by
  induction ss generalizing stages with
  | nil => exact (Option.or_none).symm
  | cons s ss ih =>
      rw [List.foldl_cons, ih, stageOf?_fillStage, stageOf?_cons]
      by_cases wanted : s.name = name
      · subst wanted
        rw [if_pos rfl]
        by_cases taken : s.name ∈ namesOf stages
        · obtain ⟨t, found⟩ := Option.isSome_iff_exists.mp (stageOf?_isSome.mpr taken)
          rw [if_neg (fun free => free.2 taken), found]
          rfl
        · have free : stageOf? stages s.name = none := stageOf?_eq_none.mpr taken
          rw [if_pos ⟨rfl, taken⟩, free]
          rfl
      · rw [if_neg wanted, if_neg (fun free => wanted free.1.symm)]

/-- Stages whose names are free and all different are added at the end. -/
theorem fillAll_of_nodup (distinct : (namesOf (stages ++ ss)).Nodup) :
    ss.foldl fillStage stages = stages ++ ss := by
  induction ss generalizing stages with
  | nil => rw [List.foldl_nil, List.append_nil]
  | cons s ss ih =>
      rw [List.append_cons] at distinct ⊢
      have start : (namesOf (stages ++ [s])).Nodup := by
        refine distinct.sublist ?_
        exact (List.sublist_append_left _ _).map _
      have free : s.name ∉ namesOf stages := by
        rw [namesOf, List.map_append, List.nodup_append] at start
        intro taken
        exact start.2.2 _ taken _ (List.mem_singleton_self _) rfl
      rw [List.foldl_cons, fillStage, if_neg (mt any_name.mp free)]
      exact ih distinct

theorem nodup_builtin : (namesOf Stage.builtin).Nodup := by decide

theorem addBuiltin_nil : addBuiltin [] = Stage.builtin := fillAll_of_nodup nodup_builtin

/-! ### Runs -/

variable {r : Registry}

theorem add_run (r : Registry) (s : Stage) (log : Records) :
    ((r.add s).run log).1 = { r with stages := insertStage r.stages s } := by
  unfold add
  split <;> rfl

theorem addPlugins_run (r : Registry) (count : Nat) (ps : List Plugin) (log : Records) :
    ((r.addPlugins count ps).run log).1 =
      ({ r with stages := (Plugin.declared ps).1.foldl insertStage r.stages },
        match (Plugin.declared ps).2 with
        | some f => .error f
        | none => .ok (count + (Plugin.declared ps).1.length)) := by
  induction ps generalizing r count log with
  | nil => rfl
  | cons p ps ih =>
      obtain ⟨name, content⟩ := p
      cases content with
      | unavailable cause => exact ih r (count + 0) _
      | other => exact ih r (count + 0) _
      | stage d =>
          rw [addPlugins, Log.run_bind]
          cases declares : d.toStage with
          | error f => simp only [addPlugin, declares, Plugin.declared]; rfl
          | ok s =>
              have added : ((r.addPlugin ⟨name, .stage d⟩).run log).1 =
                  ({ r with stages := insertStage r.stages s }, .ok 1) := by
                simp only [addPlugin, declares]
                change (((r.add s).run log).1, _) = _
                rw [add_run]
              rw [added]
              have later := ih { r with stages := insertStage r.stages s } (count + 1)
                ((r.addPlugin ⟨name, .stage d⟩).run log).2
              simp only [Plugin.declared, declares, List.foldl_cons, List.length_cons]
              rw [later, Nat.add_right_comm, Nat.add_assoc]

theorem discover_run (r : Registry) (ps : List Plugin) (log : Records) :
    ((r.discover ps).run log).1 =
      ({ r with stages := (Plugin.declared ps).1.foldl insertStage r.stages },
        match (Plugin.declared ps).2 with
        | some f => .error f
        | none => .ok (Plugin.declared ps).1.length) := by
  have added := addPlugins_run r 0 ps log
  rw [Nat.zero_add] at added
  rw [discover, Log.run_bind]
  rcases hx : ((r.addPlugins 0 ps).run log).1 with ⟨r', count⟩
  rw [hx] at added
  dsimp only
  rw [← added]
  rcases count with e | n
  · rfl
  · cases n <;> rfl

theorem load_run (r : Registry) (ps : List Plugin) (log : Records) :
    ((r.load ps).run log).1 =
      if r.loaded then (r, .ok ())
      else
        match (Plugin.declared ps).2 with
        | some f => (⟨(Plugin.declared ps).1.foldl insertStage (addBuiltin r.stages), false⟩, .error f)
        | none => (⟨(Plugin.declared ps).1.foldl insertStage (addBuiltin r.stages), true⟩, .ok ()) := by
  unfold load
  generalize addBuiltin r.stages = filled
  by_cases already : r.loaded = true
  · rw [if_pos already, if_pos already]
    rfl
  · rw [if_neg already, if_neg already, Log.run_bind]
    have added := discover_run { r with stages := filled } ps log
    rcases hx : (discover { r with stages := filled } ps).run log with ⟨⟨r', count⟩, log'⟩
    rw [hx] at added
    have fresh : r.loaded = false := by simpa using already
    cases given : (Plugin.declared ps).2 with
    | some f =>
        rw [given] at added
        obtain ⟨rfl, rfl⟩ := Prod.mk.inj added
        rw [fresh]
        rfl
    | none =>
        rw [given] at added
        obtain ⟨rfl, rfl⟩ := Prod.mk.inj added
        rfl

theorem remove_run (r : Registry) (name : String) (log : Records) :
    ((r.remove name).run log).1 =
      ({ r with stages := r.stages.filter fun s => s.name != name },
        (stageOf? r.stages name).isSome) := by
  unfold remove
  change ((if (stageOf? r.stages name).isNone then _ else _ : Logged _).run log).1 = _
  by_cases there : name ∈ namesOf r.stages
  · obtain ⟨s, found⟩ := Option.isSome_iff_exists.mp (stageOf?_isSome.mpr there)
    rw [found]
    rfl
  · have missing := stageOf?_eq_none.mpr there
    rw [missing]
    -- without the name nothing is filtered out
    have kept : (r.stages.filter fun s => s.name != name) = r.stages := by
      refine List.filter_eq_self.mpr fun s hs => ?_
      have other : s.name ≠ name := by
        intro same
        exact there (same ▸ List.mem_map_of_mem hs)
      simpa using other
    rw [kept]
    rfl

end Registry

end NoteMarkup
