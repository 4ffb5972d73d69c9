import Mathlib.Data.List.Basic
import Mathlib.Data.List.Pairwise
import NoteMarkup.Proofs.StageOrder
import NoteMarkup.Stage.Simple

/-! When plugins are looked for. A registry that has been cleared can look for plugins before its
built-in stages are loaded or after that. The same stages are registered both ways, and they run at
the same priorities. Ties are kept in the order of registration, so a plugin that is found first can
overtake a stage of its priority. -/

namespace NoteMarkup

/-- First occurrences stand in the order of their places. -/
theorem pairwise_idxOf_fresh (seen xs : List String) :
    (fresh seen xs).Pairwise fun a b => xs.idxOf a < xs.idxOf b := by
  induction xs generalizing seen with
  | nil => exact List.Pairwise.nil
  | cons x xs ih =>
      have later {a b : String} (ha : a ≠ x) (hb : b ≠ x) (h : xs.idxOf a < xs.idxOf b) :
          (x :: xs).idxOf a < (x :: xs).idxOf b := by
        rw [List.idxOf_cons_ne _ ha.symm, List.idxOf_cons_ne _ hb.symm]
        exact Nat.succ_lt_succ h
      by_cases known : x ∈ seen
      · have other {a : String} (ha : a ∈ fresh seen xs) : a ≠ x := by
          rintro rfl
          exact (mem_fresh.mp ha).2 known
        rw [fresh_cons_of_mem known]
        exact (ih seen).imp_of_mem fun ha hb h => later (other ha) (other hb) h
      · have other {a : String} (ha : a ∈ fresh (seen ++ [x]) xs) : a ≠ x := by
          rintro rfl
          exact (mem_fresh.mp ha).2 (List.mem_append_right _ (List.mem_singleton_self _))
        rw [fresh_cons_of_not_mem known]
        refine List.pairwise_cons.mpr ⟨?_, ?_⟩
        · intro b hb
          rw [List.idxOf_cons_self, List.idxOf_cons_ne _ (other hb).symm]
          exact Nat.succ_pos _
        · exact (ih _).imp_of_mem fun ha hb h => later (other ha) (other hb) h

/-- Two lists with the same items, sorted by the same key and by different orders of ties, are equal
just if no two items of one key stand in opposite orders. -/
theorem eq_iff_no_inversion {α : Type} {key i j : α → Nat} {as bs : List α} (perm : as.Perm bs)
    (has : as.Pairwise fun a b => key a < key b ∨ key a = key b ∧ i a < i b)
    (hbs : bs.Pairwise fun a b => key a < key b ∨ key a = key b ∧ j a < j b) :
    as = bs ↔ ∀ a ∈ as, ∀ b ∈ as, key a = key b → ¬(i a < i b ∧ j b < j a) := by
  constructor
  · rintro rfl a ha b hb tie ⟨first, second⟩
    have both := (has.and hbs).imp (S := fun a b => key a = key b →
        (i a < i b ∧ j a < j b) ∨ (i b < i a ∧ j b < j a)) (by omega)
    have symm : Std.Symm fun a b : α => key a = key b →
        (i a < i b ∧ j a < j b) ∨ (i b < i a ∧ j b < j a) := ⟨fun a b h tie => (h tie.symm).symm⟩
    have ne : a ≠ b := by
      rintro rfl
      exact Nat.lt_irrefl _ first
    rcases both.forall ha hb ne tie with h | h <;> omega
  · intro straight
    have apart := hbs.imp (S := fun a b => key a = key b → j a < j b ∨ j b < j a) (by omega)
    have symm : Std.Symm fun a b : α => key a = key b → j a < j b ∨ j b < j a :=
      ⟨fun a b h tie => (h tie.symm).symm⟩
    have resorted : as.Pairwise fun a b => key a < key b ∨ key a = key b ∧ j a < j b := by
      refine has.imp_of_mem ?_
      intro a b ha hb h
      rcases h with less | ⟨tie, first⟩
      · exact .inl less
      · have ne : a ≠ b := by
          rintro rfl
          exact Nat.lt_irrefl _ first
        have straight := straight a ha b hb tie
        have apart := apart.forall (perm.mem_iff.mp ha) (perm.mem_iff.mp hb) ne tie
        exact .inr ⟨tie, by omega⟩
    refine List.Perm.eq_of_pairwise ?_ resorted hbs perm
    intro a b _ _ h h'
    omega

namespace Registry

open Log

/-- Clears a registry, looks for plugins, and asks which stages run; the built-in stages are loaded
by the last request. -/
def discoverFirst (installed : List Plugin) (o : Options) : List (List Plugin × Request) :=
  [([], .clear), (installed, .discover), ([], .access (.enabled o))]

/-- The same, but the built-in stages are loaded before plugins are looked for. -/
def loadFirst (installed : List Plugin) (o : Options) : List (List Plugin × Request) :=
  [([], .clear), ([], .access .names), (installed, .discover), ([], .access (.enabled o))]

/-- One name belongs to a built-in stage that stands before the other one, which plugins declare
first. -/
def Overtakes (installed : List Plugin) (p b : String) : Prop :=
  (namesOf Stage.builtin).idxOf b < (namesOf Stage.builtin).idxOf p ∧
    (namesOf (Plugin.declared installed).1).idxOf p <
      (namesOf (Plugin.declared installed).1).idxOf b

/-- The stages of a registry that has found plugins before loading. -/
def foundFirst (ss : List Stage) : List Stage := addBuiltin (ss.foldl insertStage [])

/-- The stages of a registry that has found plugins after loading. -/
def foundLast (ss : List Stage) : List Stage := ss.foldl insertStage Stage.builtin

variable {r : Registry} {installed : List Plugin} {o : Options} {log : Records}

theorem ask_discover (r : Registry) (installed : List Plugin) (log : Records) :
    ((r.ask installed .discover).run log).1.1 =
      { r with stages := (Plugin.declared installed).1.foldl insertStage r.stages } := by
  have run : ((r.ask installed .discover).run log).1.1 = ((r.discover installed).run log).1.1 := rfl
  rw [run, discover_run]

theorem ask_enabled (r : Registry) (o : Options) (log : Records) :
    ((r.ask [] (.access (.enabled o))).run log).1.2 =
      .ok (.stages (enabledStages
        ⟨if r.loaded then r.stages else addBuiltin r.stages, true⟩ o)) := by
  simp only [ask]
  rw [Log.run_bind, load_run]
  generalize addBuiltin r.stages = filled
  cases r.loaded with
  | true => rfl
  | false => rfl

theorem ask_names (r : Registry) (log : Records) :
    ((r.ask [] (.access .names)).run log).1.1 =
      ⟨if r.loaded then r.stages else addBuiltin r.stages, true⟩ := by
  obtain ⟨stages, loaded⟩ := r
  simp only [ask]
  rw [Log.run_bind, load_run]
  generalize addBuiltin stages = filled
  cases loaded with
  | true => rfl
  | false => rfl

/-- The last answer does not depend on the answers before it. -/
theorem getLast?_askAll (r : Registry) (first second : List Plugin × Request)
    (qs : List (List Plugin × Request)) (log : Records) :
    ∃ log', ((r.askAll (first :: second :: qs)).run log).1.2.getLast? =
      ((((r.ask first.1 first.2).run log).1.1.askAll (second :: qs)).run log').1.2.getLast? :=
  ⟨((r.ask first.1 first.2).run log).2, List.getLast?_cons_cons⟩

theorem askAll_enabled (r : Registry) (o : Options) (log : Records) :
    ((r.askAll [([], .access (.enabled o))]).run log).1.2.getLast? =
      some (.ok (.stages (enabledStages
        ⟨if r.loaded then r.stages else addBuiltin r.stages, true⟩ o))) :=
  congrArg some (ask_enabled r o log)

theorem askAll_discoverFirst (r : Registry) (installed : List Plugin) (o : Options) (log : Records) :
    ((r.askAll (discoverFirst installed o)).run log).1.2.getLast? =
      some (.ok (.stages (enabledStages ⟨foundFirst (Plugin.declared installed).1, true⟩ o))) := by
  obtain ⟨log₁, cleared⟩ := getLast?_askAll r ([], .clear) (installed, .discover)
    [([], .access (.enabled o))] log
  obtain ⟨log₂, discovered⟩ := getLast?_askAll empty (installed, .discover)
    ([], .access (.enabled o)) [] log₁
  rw [ask_discover, askAll_enabled] at discovered
  exact cleared.trans discovered

theorem askAll_loadFirst (r : Registry) (installed : List Plugin) (o : Options) (log : Records) :
    ((r.askAll (loadFirst installed o)).run log).1.2.getLast? =
      some (.ok (.stages (enabledStages ⟨foundLast (Plugin.declared installed).1, true⟩ o))) := by
  obtain ⟨log₁, cleared⟩ := getLast?_askAll r ([], .clear) ([], .access .names)
    [(installed, .discover), ([], .access (.enabled o))] log
  obtain ⟨log₂, loaded⟩ := getLast?_askAll empty ([], .access .names) (installed, .discover)
    [([], .access (.enabled o))] log₁
  have started : (⟨if empty.loaded then empty.stages else addBuiltin empty.stages, true⟩ : Registry) =
      builtin := congrArg (fun stages => (⟨stages, true⟩ : Registry)) addBuiltin_nil
  rw [ask_names, started] at loaded
  obtain ⟨log₃, discovered⟩ := getLast?_askAll builtin (installed, .discover)
    ([], .access (.enabled o)) [] log₂
  rw [ask_discover, askAll_enabled] at discovered
  exact cleared.trans (loaded.trans discovered)

/-! ### The two lists of stages -/

theorem namesOf_foundFirst (ss : List Stage) :
    namesOf (foundFirst ss) = fresh [] (namesOf ss ++ namesOf Stage.builtin) := by
  rw [foundFirst, addBuiltin_eq, namesOf_fillAll, namesOf_insertAll, fresh_append]
  have same : ∀ t, t ∈ namesOf [] ++ fresh (namesOf []) (namesOf ss) ↔ t ∈ [] ++ namesOf ss := by
    intro t
    simp [namesOf, mem_fresh]
  rw [fresh_congr same]
  rfl

theorem namesOf_foundLast (ss : List Stage) :
    namesOf (foundLast ss) = fresh [] (namesOf Stage.builtin ++ namesOf ss) := by
  have start : fresh [] (namesOf Stage.builtin) = namesOf Stage.builtin := by
    have filled := namesOf_fillAll [] Stage.builtin
    rw [← addBuiltin_eq, addBuiltin_nil] at filled
    exact filled.symm
  rw [foundLast, namesOf_insertAll, fresh_append, start]
  rfl

theorem nodup_foundFirst (ss : List Stage) : (namesOf (foundFirst ss)).Nodup := by
  rw [namesOf_foundFirst]
  exact nodup_fresh _ _

theorem nodup_foundLast (ss : List Stage) : (namesOf (foundLast ss)).Nodup := by
  rw [namesOf_foundLast]
  exact nodup_fresh _ _

theorem nodup_of_namesOf {stages : List Stage} (h : (namesOf stages).Nodup) : stages.Nodup := by
  refine List.Pairwise.of_map _ ?_ h
  intro a b ne same
  exact ne (congrArg _ same)

/-- The same stages are registered both ways. -/
theorem foundFirst_perm (ss : List Stage) : (foundFirst ss).Perm (foundLast ss) := by
  have first := nodup_foundFirst ss
  have last := nodup_foundLast ss
  refine (List.perm_ext_iff_of_nodup (nodup_of_namesOf first) (nodup_of_namesOf last)).mpr ?_
  intro s
  rw [mem_iff_stageOf? first, mem_iff_stageOf? last, foundFirst, foundLast, addBuiltin_eq,
    stageOf?_fillAll, stageOf?_insertAll, stageOf?_insertAll, Option.or_assoc]
  rfl

theorem inverted_iff (xs ys : List String) (a b : String) :
    (xs ++ ys).idxOf a < (xs ++ ys).idxOf b ∧ (ys ++ xs).idxOf b < (ys ++ xs).idxOf a ↔
      ys.idxOf b < ys.idxOf a ∧ xs.idxOf a < xs.idxOf b := by
  have xa := List.idxOf_lt_length_iff (l := xs) (a := a)
  have xb := List.idxOf_lt_length_iff (l := xs) (a := b)
  have ya := List.idxOf_lt_length_iff (l := ys) (a := a)
  have yb := List.idxOf_lt_length_iff (l := ys) (a := b)
  have xa' := List.idxOf_le_length (l := xs) (a := a)
  have xb' := List.idxOf_le_length (l := xs) (a := b)
  have ya' := List.idxOf_le_length (l := ys) (a := a)
  have yb' := List.idxOf_le_length (l := ys) (a := b)
  rw [List.idxOf_append, List.idxOf_append, List.idxOf_append, List.idxOf_append]
  simp only [← xa, ← xb, ← ya, ← yb]
  split <;> split <;> split <;> split <;> omega

theorem enabledStages_perm {ss ts : List Stage} (h : ss.Perm ts) (o : Options) :
    (enabledStages ⟨ss, true⟩ o).Perm (enabledStages ⟨ts, true⟩ o) :=
  (List.mergeSort_perm _ _).trans ((h.filter _).trans (List.mergeSort_perm _ _).symm)

/-- The enabled stages of a registry whose names are the first occurrences in a list run by priority,
and by their places in the list. -/
theorem enabledStages_places {stages : List Stage} {order : List String}
    (named : namesOf stages = fresh [] order) (o : Options) :
    (enabledStages ⟨stages, true⟩ o).Pairwise fun s t => s.priority < t.priority ∨
      s.priority = t.priority ∧ order.idxOf s.name < order.idxOf t.name := by
  have places := pairwise_idxOf_fresh [] order
  rw [← named] at places
  exact pairwise_enabledStages (r := ⟨stages, true⟩) places o

theorem ascending_priorities {as : List Stage} {before : Stage → Stage → Prop}
    (h : as.Pairwise fun s t => s.priority < t.priority ∨ s.priority = t.priority ∧ before s t) :
    (as.map (·.priority)).Pairwise (· ≤ ·) := by
  refine List.pairwise_map.mpr (h.imp ?_)
  intro s t apart
  rcases apart with less | ⟨tie, _⟩
  · exact Nat.le_of_lt less
  · exact Nat.le_of_eq tie

/-- The same stages, registered in two orders of names, run at the same priorities. They run in the
same order just if no two of one priority stand in opposite orders. -/
theorem enabledStages_twice {ss ts : List Stage} {xs ys : List String} (same : ss.Perm ts)
    (first : namesOf ss = fresh [] (xs ++ ys)) (last : namesOf ts = fresh [] (ys ++ xs)) (o : Options) :
    (enabledStages ⟨ss, true⟩ o).map (·.priority) = (enabledStages ⟨ts, true⟩ o).map (·.priority) ∧
      (enabledStages ⟨ss, true⟩ o = enabledStages ⟨ts, true⟩ o ↔
        ∀ p ∈ enabledStages ⟨ss, true⟩ o, ∀ b ∈ enabledStages ⟨ss, true⟩ o,
          p.priority = b.priority →
            ¬(ys.idxOf b.name < ys.idxOf p.name ∧ xs.idxOf p.name < xs.idxOf b.name)) := by
  have perm := enabledStages_perm same o
  have has := enabledStages_places first o
  have hbs := enabledStages_places last o
  generalize enabledStages ⟨ss, true⟩ o = as at perm has ⊢
  generalize enabledStages ⟨ts, true⟩ o = bs at perm hbs ⊢
  refine ⟨?_, ?_⟩
  · refine List.Perm.eq_of_pairwise ?_ (ascending_priorities has) (ascending_priorities hbs)
      (perm.map _)
    intro a b _ _ le ge
    exact Nat.le_antisymm le ge
  · rw [eq_iff_no_inversion perm has hbs]
    simp only [inverted_iff]

/-- Both orders of discovery run the same stages at the same priorities. They run them in the same
order just if no plugin overtakes another stage of its priority. -/
theorem discovery_order_iff (r : Registry) (installed : List Plugin) (o : Options) (log : Records) :
    ∃ as bs,
      ((r.askAll (discoverFirst installed o)).run log).1.2.getLast? = some (.ok (.stages as)) ∧
      ((r.askAll (loadFirst installed o)).run log).1.2.getLast? = some (.ok (.stages bs)) ∧
      as.Perm bs ∧ as.map (·.priority) = bs.map (·.priority) ∧
      (as = bs ↔
        ∀ p ∈ as, ∀ b ∈ as, p.priority = b.priority → ¬Overtakes installed p.name b.name) := by
  have same := foundFirst_perm (Plugin.declared installed).1
  have first := namesOf_foundFirst (Plugin.declared installed).1
  have last := namesOf_foundLast (Plugin.declared installed).1
  exact ⟨_, _, askAll_discoverFirst r installed o log, askAll_loadFirst r installed o log,
    enabledStages_perm same o, enabledStages_twice same first last o⟩

/-- Block references are read, and nothing else of the dialect. -/
def markersOnly : Options := ⟨fun f => f == .parseBlockReferences⟩

def tiedPlugin : Plugin :=
  ⟨"entry", .stage ⟨"plugin", "Keeps every node", .transformation .identity, none, 100, []⟩⟩

/-- A plugin of the default priority runs before the built-in stage of that priority if it is found
before the built-in stages are loaded. -/
theorem tiedPlugin_overtakes :
    ∃ as bs,
      ((empty.askAll (discoverFirst [tiedPlugin] markersOnly)).run []).1.2.getLast? =
        some (.ok (.stages as)) ∧
      ((empty.askAll (loadFirst [tiedPlugin] markersOnly)).run []).1.2.getLast? =
        some (.ok (.stages bs)) ∧
      namesOf as = ["plugin", "block-references"] ∧ namesOf bs = ["block-references", "plugin"] := by
  refine ⟨_, _, askAll_discoverFirst empty [tiedPlugin] markersOnly [],
    askAll_loadFirst empty [tiedPlugin] markersOnly [], ?_, ?_⟩
  · have run : (foundFirst (Plugin.declared [tiedPlugin]).1).filter (·.isEnabled markersOnly) =
        [⟨"plugin", "Keeps every node", .identity, none, 100, []⟩, Stage.blockReferences] := rfl
    rw [enabledStages, run, List.mergeSort_of_pairwise (by simp [Stage.blockReferences])]
    rfl
  · have run : (foundLast (Plugin.declared [tiedPlugin]).1).filter (·.isEnabled markersOnly) =
        [Stage.blockReferences, ⟨"plugin", "Keeps every node", .identity, none, 100, []⟩] := rfl
    rw [enabledStages, run, List.mergeSort_of_pairwise (by simp [Stage.blockReferences])]
    rfl

end Registry

end NoteMarkup
