import Mathlib.Data.List.Induction
import Mathlib.Data.List.Nodup
import Mathlib.Data.Set.Basic
import Mathlib.Order.MinMax
import NoteMarkup.Proofs.Lines
import NoteMarkup.Proofs.TaskRun

/-! Setup calls, one after the other. A call replaces the handlers and the level of the package logger,
and sets the levels of the stage loggers that it names. A level that an earlier call set for another
stage is left over, and it counts for the loggers below that stage as well. -/

namespace NoteMarkup.LogSetup

open Text

/-! ### Levels in a table -/

section Table

variable {levels changes : List (String × Int)} {l k : String} {n : Int}

theorem lookup_entry (l : String) (n : Int) (rest : List (String × Int)) (k : String) :
    ((l, n) :: rest).lookup k = if k = l then some n else rest.lookup k := by
  rw [List.lookup_cons]
  by_cases same : k = l
  · rw [beq_iff_eq.mpr same, if_pos same]
  · rw [beq_eq_false_iff_ne.mpr same, if_neg same]

theorem lookup_setLevel (levels : List (String × Int)) (l k : String) (n : Int) :
    (setLevel levels l n).lookup k = if k = l then some n else levels.lookup k := by
  induction levels with
  | nil => exact lookup_entry l n [] k
  | cons entry rest ih =>
      obtain ⟨first, m⟩ := entry
      by_cases here : first = l
      · rw [setLevel, if_pos (beq_iff_eq.mpr here), lookup_entry, lookup_entry, here]
        split <;> rfl
      · rw [setLevel, if_neg (by simpa using here), lookup_entry, lookup_entry, ih]
        by_cases same : k = first
        · rw [if_pos same, if_neg fun eq => here (same ▸ eq), if_pos same]
        · rw [if_neg same, if_neg same]

theorem map_fst_setLevel (levels : List (String × Int)) (l : String) (n : Int) :
    (setLevel levels l n).map Prod.fst =
      if l ∈ levels.map Prod.fst then levels.map Prod.fst else levels.map Prod.fst ++ [l] := by
  induction levels with
  | nil => rfl
  | cons entry rest ih =>
      obtain ⟨first, m⟩ := entry
      by_cases here : first = l
      · simp [setLevel, here]
      · rw [setLevel, if_neg (by simpa using here), List.map_cons, ih]
        by_cases later : l ∈ rest.map Prod.fst <;> simp [later, Ne.symm here]

theorem nodup_setLevel (h : (levels.map Prod.fst).Nodup) (l : String) (n : Int) :
    ((setLevel levels l n).map Prod.fst).Nodup := by
  rw [map_fst_setLevel]
  split
  · exact h
  · next new =>
      rw [← List.concat_eq_append]
      exact (List.nodup_concat _ l).mpr ⟨new, h⟩

/-- Changes win over what was there. -/
theorem lookup_changed (h : (changes.map Prod.fst).Nodup) (levels : List (String × Int)) (k : String) :
    (changes.foldl (fun acc o => setLevel acc o.1 o.2) levels).lookup k =
      (changes.lookup k).or (levels.lookup k) := by
  induction changes generalizing levels with
  | nil => rfl
  | cons change rest ih =>
      obtain ⟨l, n⟩ := change
      obtain ⟨new, apart⟩ := List.nodup_cons.mp h
      rw [List.foldl_cons, ih apart, lookup_setLevel, lookup_entry]
      by_cases same : k = l
      · have unnamed : rest.lookup l = none := by
          refine List.lookup_eq_none_iff.mpr fun p member => ?_
          exact bne_iff_ne.mpr fun eq => new (List.mem_map.mpr ⟨p, member, eq.symm⟩)
        rw [if_pos same, if_pos same, same, unnamed, Option.none_or, Option.some_or]
      · rw [if_neg same, if_neg same]

end Table

theorem Request.nodup_overrides (q : Request) : (q.overrides.map Prod.fst).Nodup := by
  have run : ∀ (named : List (String × LevelSpec)) (levels : List (String × Int)),
      (levels.map Prod.fst).Nodup →
        ((named.foldl (fun acc s => setLevel acc s.1 s.2.resolve) levels).map Prod.fst).Nodup := by
    intro named
    induction named with
    | nil => exact fun _ h => h
    | cons s rest ih => exact fun levels h => ih _ (nodup_setLevel h s.1 s.2.resolve)
  exact run q.stageLevels [] List.nodup_nil

/-- The level that a call gives a stage. -/
def Request.levelOf? (q : Request) (stage : String) : Option Int := q.overrides.lookup stage

theorem Setup.lookup_after (s : Setup) (q : Request) (opened : Option Path) (stage : String) :
    (s.after q opened).stageLevels.lookup stage = (q.levelOf? stage).or (s.stageLevels.lookup stage) :=
  lookup_changed q.nodup_overrides s.stageLevels stage

/-! ### Histories of calls -/

section History

variable {σ : Type} [Host (StateM σ)]

/-- The setup that calls leave in a program that has made none before. -/
def Setup.afterCalls (calls : List Request) (w : σ) : Setup :=
  ((calls.foldlM Setup.configure Setup.initial : StateM σ Setup).run w).1

/-- The level that the latest of the calls that name a stage gives it. -/
def latestLevel? (calls : List Request) (stage : String) : Option Int :=
  calls.reverse.findSome? (·.levelOf? stage)

theorem latestLevel?_concat (calls : List Request) (q : Request) (stage : String) :
    latestLevel? (calls ++ [q]) stage = (q.levelOf? stage).or (latestLevel? calls stage) := by
  rw [latestLevel?, List.reverse_concat, List.findSome?_cons]
  cases q.levelOf? stage <;> rfl

theorem Setup.configure_eq_after (s : Setup) (q : Request) (w : σ) :
    ∃ opened, ((s.configure q : StateM σ Setup).run w).1 = s.after q opened := by
  rw [Setup.configure]
  split
  · exact ⟨none, rfl⟩
  · next name _ =>
      rw [Task.host_bind]
      rcases ((openFile name : StateM σ _).run w) with ⟨opening, v⟩
      cases opening with
      | error cause => exact ⟨none, rfl⟩
      | ok path => exact ⟨some path, rfl⟩

theorem Setup.afterCalls_concat (calls : List Request) (q : Request) (w : σ) :
    ∃ opened, Setup.afterCalls (calls ++ [q]) w = (Setup.afterCalls calls w).after q opened := by
  rw [Setup.afterCalls, List.foldlM_append, Task.host_bind, List.foldlM_cons, Task.host_bind]
  exact Setup.configure_eq_after _ q _

theorem Setup.lookup_afterCalls (calls : List Request) (w : σ) (stage : String) :
    (Setup.afterCalls calls w).stageLevels.lookup stage = latestLevel? calls stage := by
  induction calls using List.reverseRecOn with
  | nil => rfl
  | append_singleton calls q ih =>
      obtain ⟨opened, after⟩ := Setup.afterCalls_concat calls q w
      rw [after, Setup.lookup_after, ih, latestLevel?_concat]

end History

/-! ### The logger that decides -/

section Deciding

variable {s t : Setup} {logger l : String} {below above : List String}

end Deciding

/-! ### What reaches the handlers -/

/-- The loggers and levels whose records reach a handler. -/
def Setup.shown (s : Setup) : Set (String × Int) :=
  {p | ∃ h ∈ s.handlers, s.reaches p.1 p.2 h}

/-- The least level of records that the handlers of a call let through. -/
def Request.floor (q : Request) : Int := max 1 q.handlerLevel

section Handlers

variable {s : Setup} {q : Request} {opened : Option Path} {logger : String} {level : Int}

/-- The handlers of a call let the same records through. -/
theorem Setup.reaches_after_iff {h : Handler} (member : h ∈ (s.after q opened).handlers) :
    (s.after q opened).reaches logger level h ↔
      packageLogger ∈ lineage logger ∧
        max ((s.after q opened).effectiveLevel logger) q.floor ≤ level := by
  have passes : h.level = q.handlerLevel := by
    rcases List.mem_cons.mp member with rfl | member
    · rfl
    · obtain ⟨path, -, rfl⟩ := List.mem_map.mp member
      rfl
  simp only [reaches, passes, Request.floor, Bool.and_eq_true, decide_eq_true_eq,
    List.contains_iff_mem]
  constructor
  · rintro ⟨⟨⟨positive, passed⟩, above⟩, taken⟩
    exact ⟨above, max_le passed (max_le positive taken)⟩
  · rintro ⟨above, least⟩
    obtain ⟨passed, least⟩ := max_le_iff.mp least
    obtain ⟨positive, taken⟩ := max_le_iff.mp least
    exact ⟨⟨⟨positive, passed⟩, above⟩, taken⟩

theorem Setup.mem_shown_after :
    (logger, level) ∈ (s.after q opened).shown ↔
      packageLogger ∈ lineage logger ∧
        max ((s.after q opened).effectiveLevel logger) q.floor ≤ level := by
  constructor
  · rintro ⟨h, member, reached⟩
    exact (reaches_after_iff member).mp reached
  · intro passed
    exact ⟨_, List.mem_cons_self, (reaches_after_iff List.mem_cons_self).mpr passed⟩

/-- After a call every handler writes a record that is shown, and none writes another. -/
theorem Setup.deliver_after {m : Type → Type} [Monad m] [Host m] (r : Log.Record)
    [Decidable ((r.logger, r.level) ∈ (s.after q opened).shown)] :
    ((s.after q opened).deliver r : m Unit) =
      if (r.logger, r.level) ∈ (s.after q opened).shown then
        (s.after q opened).handlers.forM (·.emit r)
      else pure () := by
  rw [deliver]
  split
  · next inside =>
      rw [List.filter_eq_self.mpr fun h member =>
        (reaches_after_iff member).mpr (mem_shown_after.mp inside)]
  · next outside =>
      rw [List.filter_eq_nil_iff.mpr fun h member reached => outside ⟨h, member, reached⟩]
      rfl

end Handlers

/-! ### Levels that stay -/

theorem Setup.ownLevel_stage (s : Setup) (stage : String) :
    s.ownLevel (stageFront ++ stage) = (s.stageLevels.lookup stage).getD 0 := by
  have other : ((stageFront ++ stage) == packageLogger) = false := by
    refine beq_false_of_ne fun same => ?_
    have longer := congrArg (·.toList.length) same
    rw [String.toList_append, List.length_append] at longer
    have : stageFront.toList.length = 18 := rfl
    have : packageLogger.toList.length = 6 := rfl
    omega
  rw [ownLevel, other, if_neg Bool.false_ne_true, String.toList_append, afterFront?_append]
  simp

section Leftovers

variable {σ : Type} [Host (StateM σ)]

/-- An earlier call has set the level of a stage that the last call does not name. -/
structure LeftOver (earlier : List Request) (last : Request) (stage : String) (level : Int) : Prop where
  unnamed : last.levelOf? stage = none
  named : latestLevel? earlier stage = some level
  set : level ≠ 0

variable {earlier : List Request} {last : Request} {w v : σ}

theorem LeftOver.ownLevel {stage : String} {level : Int} (h : LeftOver earlier last stage level) (w : σ) :
    (Setup.afterCalls (earlier ++ [last]) w).ownLevel (stageFront ++ stage) = level := by
  rw [Setup.ownLevel_stage, Setup.lookup_afterCalls, latestLevel?_concat, h.unnamed, h.named]
  rfl

end Leftovers

end NoteMarkup.LogSetup
