import Mathlib
import NoteMarkup.CommandLine.Command
import NoteMarkup.Proofs.Record
import NoteMarkup.Proofs.TaskRun
import NoteMarkup.Proofs.Utf8

/-! Which setting of a flag wins. The entries of a configuration are set in order, so the last one that
names a flag wins, in either spelling, and overrides come after the configuration. Overrides are first put
into a map, where a key keeps its first place: the last override loses to one in the other spelling if that
spelling was first used later. -/

namespace NoteMarkup

/-! ### Settings in order -/

/-- Settings of flags, each with the key that was written. -/
abbrev Settings := List (String × Bool)

namespace Settings

/-- The settings of a flag, in either spelling. -/
def ofFlag (ss : Settings) (f : Flag) : Settings := ss.filter fun s => Flag.ofKey? s.1 == some f

/-- The last setting of a flag. -/
def last? (ss : Settings) (f : Flag) : Option Bool := (ss.ofFlag f).getLast?.map Prod.snd

/-- Every key names a flag. -/
def Known (ss : Settings) : Prop := ∀ s ∈ ss, (Flag.ofKey? s.1).isSome = true

/-- The entries of a map that gives the settings. -/
def entries (ss : Settings) : Record := ss.map fun s => (.str s.1, .bool s.2)

variable {ss : Settings} {s : String × Bool} {f : Flag}

theorem ofFlag_cons (s : String × Bool) (ss : Settings) (f : Flag) :
    ofFlag (s :: ss) f = if Flag.ofKey? s.1 = some f then s :: ss.ofFlag f else ss.ofFlag f := by
  simp [ofFlag, List.filter_cons]

theorem last?_cons (s : String × Bool) (ss : Settings) (f : Flag) :
    last? (s :: ss) f = (ss.last? f).or (if Flag.ofKey? s.1 = some f then some s.2 else none) := by
  rw [last?, last?, ofFlag_cons]
  split
  · rw [List.getLast?_cons]
    cases (ss.ofFlag f).getLast? <;> rfl
  · rw [Option.or_none]

end Settings

namespace Options

open Settings

variable {ss : Settings} {r : Record} {base o : Options} {f : Flag}

theorem ofRecord_cons (e : Value × Value) (r : Record) (base : Options) :
    ofRecord (e :: r) base = (setting e).bind fun s => ofRecord r (base.set s.1 s.2) := by
  unfold ofRecord
  rw [List.mapM_cons]
  cases setting e with
  | error fault => rfl
  | ok s => cases r.mapM setting <;> rfl

/-- Of the settings of a flag the last one wins. -/
theorem ofRecord_entries (known : ss.Known) (base : Options) :
    ∃ o, ofRecord ss.entries base = .ok o ∧
      ∀ f, o.enabled f = (ss.last? f).getD (base.enabled f) := by
  induction ss generalizing base with
  | nil => exact ⟨base, rfl, fun f => rfl⟩
  | cons s ss ih =>
      obtain ⟨first, later⟩ := List.forall_mem_cons.mp known
      obtain ⟨g, named⟩ := Option.isSome_iff_exists.mp first
      obtain ⟨o, given, enabled⟩ := ih later (base.set g s.2)
      have said : setting (.str s.1, .bool s.2) = .ok (g, s.2) := by simp [setting, named]
      refine ⟨o, ?_, fun f => ?_⟩
      · rw [entries, List.map_cons, ofRecord_cons, said]
        exact given
      · rw [enabled, last?_cons, named]
        cases last? ss f <;> by_cases same : f = g <;> simp [set, same, Ne.symm]

theorem exists_key_of_setting {e : Value × Value} {s : Flag × Bool} (h : setting e = .ok s) :
    ∃ key b, e = (.str key, .bool b) ∧ Flag.ofKey? key = some s.1 := by
  obtain ⟨k, v⟩ := e
  unfold setting at h
  split at h
  · next key same =>
      split at h
      · cases h
      · next f named =>
          split at h
          · next b value =>
              cases h
              exact ⟨key, b, Prod.ext same value, named⟩
          · cases h
  · cases h

/-- Entries that can be set are settings with known keys. -/
theorem exists_settings_of_ofRecord (h : ofRecord r base = .ok o) :
    ∃ ss : Settings, r = ss.entries ∧ ss.Known := by
  induction r generalizing base with
  | nil => exact ⟨[], rfl, nofun⟩
  | cons e r ih =>
      rw [ofRecord_cons] at h
      cases said : setting e with
      | error fault =>
          rw [said] at h
          cases h
      | ok s =>
          rw [said] at h
          obtain ⟨ss, rfl, known⟩ := ih h
          obtain ⟨key, b, rfl, named⟩ := exists_key_of_setting said
          exact ⟨(key, b) :: ss, rfl, List.forall_mem_cons.mpr ⟨by rw [named]; rfl, known⟩⟩

end Options

/-! ### Settings in a map -/

namespace Settings

variable {ss rest : Settings} {s : String × Bool} {f : Flag} {key other : String} {b : Bool}

/-- Sets a key: a present one keeps its place. -/
def put (ss : Settings) (s : String × Bool) : Settings :=
  match ss with
  | [] => [s]
  | t :: ss => if t.1 = s.1 then s :: ss else t :: put ss s

/-- What a map holds after settings in order. -/
def once (ss : Settings) : Settings := ss.foldl put []

theorem once_append (ss : Settings) (s : String × Bool) : once (ss ++ [s]) = (once ss).put s := by
  rw [once, List.foldl_append]
  rfl

theorem entries_put (ss : Settings) (s : String × Bool) :
    (ss.put s).entries = ss.entries.set (.str s.1) (.bool s.2) := by
  induction ss with
  | nil => rfl
  | cons t ss ih =>
      simp only [put, entries, Record.set, List.map_cons, Entries.insert, Value.sameKey_str_iff,
        Value.str.injEq]
      split
      · next same => simp [same]
      · exact congrArg _ ih

theorem overrideEntries_eq (overrides : Settings) :
    CommandLine.overrideEntries overrides = (once overrides).entries := by
  induction overrides using List.reverseRecOn with
  | nil => rfl
  | append_singleton overrides s ih =>
      rw [once_append, entries_put, ← ih]
      simp [CommandLine.overrideEntries, Record.ofList, Record.merge]

theorem ofFlag_put (ss : Settings) (s : String × Bool) (f : Flag) :
    (ss.put s).ofFlag f = if Flag.ofKey? s.1 = some f then (ss.ofFlag f).put s else ss.ofFlag f := by
  induction ss with
  | nil => exact ofFlag_cons s [] f
  | cons t ss ih =>
      by_cases same : t.1 = s.1
      · rw [put, if_pos same, ofFlag_cons, ofFlag_cons, same]
        split
        · rw [put, if_pos same]
        · rfl
      · rw [put, if_neg same, ofFlag_cons, ofFlag_cons, ih]
        split
        · split
          · rw [put, if_neg same]
          · rfl
        · rfl

theorem ofFlag_once (ss : Settings) (f : Flag) : (once ss).ofFlag f = once (ss.ofFlag f) := by
  induction ss using List.reverseRecOn with
  | nil => rfl
  | append_singleton ss s ih =>
      rw [once_append, ofFlag_put, ih]
      by_cases named : Flag.ofKey? s.1 = some f
      · simp [ofFlag, List.filter_append, named, once_append]
      · simp [ofFlag, List.filter_append, named]

/-- What a map holds after settings of two keys: each key once, with its last value. -/
theorem once_cons (key : String) (b : Bool) (two : ∀ s ∈ rest, s.1 = key ∨ s.1 = other) :
    once ((key, b) :: rest) =
      (key, ((rest.filter (·.1 = key)).getLast?.map Prod.snd).getD b) ::
        (rest.filter (·.1 ≠ key)).getLast?.toList := by
  induction rest using List.reverseRecOn with
  | nil => rfl
  | append_singleton rest s ih =>
      obtain ⟨earlier, last⟩ := List.forall_mem_append.mp two
      rw [← List.cons_append, once_append, ih earlier, List.filter_append, List.filter_append]
      obtain ⟨k, c⟩ := s
      by_cases same : k = key
      · simp [put, same]
      · have spelled : k = other := (List.forall_mem_singleton.mp last).resolve_left same
        cases found : (rest.filter (·.1 ≠ key)).getLast? with
        | none => simp [put, same, Ne.symm same]
        | some m =>
            have member := List.mem_filter.mp (List.mem_of_getLast? found)
            have alike : m.1 = k := by
              rw [spelled]
              exact (earlier m member.1).resolve_left (by simpa using member.2)
            simp [put, same, Ne.symm same, alike]

theorem spelled_of_ofKey? (h : Flag.ofKey? key = some f) : key = f.name ∨ key = f.camelName := by
  have spelled := List.find?_some h
  rw [Bool.or_eq_true, beq_iff_eq, beq_iff_eq] at spelled
  exact spelled.imp Eq.symm Eq.symm

/-- A flag has no more than two spellings. -/
theorem exists_other (split : ss.ofFlag f = (key, b) :: rest) :
    ∃ other, ∀ s ∈ rest, s.1 = key ∨ s.1 = other := by
  have spelled : ∀ s ∈ (key, b) :: rest, s.1 = f.name ∨ s.1 = f.camelName := by
    intro s member
    rw [← split] at member
    exact spelled_of_ofKey? (by simpa using (List.mem_filter.mp member).2)
  obtain ⟨first, later⟩ := List.forall_mem_cons.mp spelled
  rcases first with rfl | rfl
  · exact ⟨f.camelName, later⟩
  · exact ⟨f.name, fun s member => (later s member).symm⟩

/-- The settings of a flag start and end in one spelling, and the last one in the other spelling is
the opposite of the last one of all. -/
inductive Overtaken (ss : Settings) (f : Flag) : Prop where
  | between {key other : String} {first last : Bool}
      (opens : (ss.ofFlag f).head? = some (key, first))
      (closes : (ss.ofFlag f).getLast? = some (key, last))
      (opposed : ((ss.ofFlag f).filter (·.1 ≠ key)).getLast? = some (other, !last)) : Overtaken ss f

theorem getLast?_filter {α : Type} {p : α → Bool} {l : List α} {a : α} (last : l.getLast? = some a)
    (h : p a = true) : (l.filter p).getLast? = some a := by
  obtain ⟨front, rfl⟩ := List.getLast?_eq_some_iff.mp last
  simp [List.filter_append, h]

section Split

variable (split : ss.ofFlag f = (key, b) :: rest)

include split

/-- The first spelling stays first in a map, so a setting in the other one comes after it. -/
theorem last?_once_of_some {w : String × Bool}
    (found : (rest.filter (·.1 ≠ key)).getLast? = some w) : (once ss).last? f = some w.2 := by
  obtain ⟨other, two⟩ := exists_other split
  rw [last?, ofFlag_once, split, once_cons key b two, found]
  rfl

theorem last?_once_of_none (none : (rest.filter (·.1 ≠ key)).getLast? = none) :
    (once ss).last? f = ss.last? f := by
  obtain ⟨other, two⟩ := exists_other split
  have all : rest.filter (·.1 = key) = rest := by
    refine List.filter_eq_self.mpr fun s member => ?_
    have notOther := List.filter_eq_nil_iff.mp (List.getLast?_eq_none_iff.mp none) s member
    simpa using notOther
  rw [last?, last?, ofFlag_once, split, once_cons key b two, none, all, List.getLast?_cons,
    List.getLast?_cons]
  cases rest.getLast? <;> rfl

end Split

theorem Overtaken.last? (h : ss.Overtaken f) :
    ∃ last, ss.last? f = some last ∧ (once ss).last? f = some !last := by
  obtain @⟨key, other, first, last, opens, closes, opposed⟩ := h
  refine ⟨last, by rw [Settings.last?, closes]; rfl, ?_⟩
  cases split : ss.ofFlag f with
  | nil =>
      rw [split] at opens
      cases opens
  | cons t rest =>
      rw [split] at opens opposed
      obtain rfl := Option.some.inj opens
      exact last?_once_of_some split (by simpa using opposed)

/-- In a map of settings the last one of a flag wins unless it is overtaken. -/
theorem last?_once_of_not_overtaken (h : ¬ss.Overtaken f) : (once ss).last? f = ss.last? f := by
  cases split : ss.ofFlag f with
  | nil =>
      rw [last?, last?, ofFlag_once, split]
      rfl
  | cons t rest =>
      obtain ⟨key, b⟩ := t
      cases found : (rest.filter (·.1 ≠ key)).getLast? with
      | none => exact last?_once_of_none split found
      | some w =>
          obtain ⟨⟨l, v⟩, closes⟩ : ∃ s, ((key, b) :: rest).getLast? = some s := ⟨_, rfl⟩
          have others : ((key, b) :: rest).filter (·.1 ≠ key) = rest.filter (·.1 ≠ key) := by simp
          rw [last?_once_of_some split found, last?, split, closes]
          refine congrArg some ?_
          by_cases same : l = key
          · subst same
            by_contra differ
            have opposed : some w = some (w.1, !v) := by rw [← Bool.eq_not_of_ne differ]
            exact h (.between (by rw [split]; rfl) (by rw [split, closes])
              (by rw [split, others, found, opposed]))
          · have last := getLast?_filter (p := fun s => decide (s.1 ≠ key)) closes (by simpa using same)
            rw [others, found] at last
            rw [Option.some.inj last]

end Settings

/-! ### The options of an invocation -/

namespace CommandLine

open Settings LogSetup

variable {σ : Type} [Host (StateM σ)] {i : Invocation} {setup : Setup} {s t u : σ} {r : Record}

/-- The entries that an invocation reads from its configuration file, none if it has no file. -/
inductive Configured (i : Invocation) (setup : Setup) (s : σ) : Record → σ → Prop where
  | none {t : σ} (found : Task.Gives (configFile i) setup s none t) : Configured i setup s [] t
  | file {p : Path} {r : Record} {t u : σ} (found : Task.Gives (configFile i) setup s (some p) t)
      (loaded : Task.Gives (Configuration.load p) setup t r u) : Configured i setup s r u

theorem known_put {ss : Settings} {s : String × Bool} (known : ss.Known)
    (named : (Flag.ofKey? s.1).isSome = true) : (ss.put s).Known := by
  induction ss with
  | nil => exact List.forall_mem_singleton.mpr named
  | cons t ss ih =>
      obtain ⟨first, later⟩ := List.forall_mem_cons.mp known
      rw [put]
      split
      · exact List.forall_mem_cons.mpr ⟨named, later⟩
      · exact List.forall_mem_cons.mpr ⟨first, ih later⟩

theorem known_once {ss : Settings} (known : ss.Known) : (once ss).Known := by
  induction ss using List.reverseRecOn with
  | nil => nofun
  | append_singleton ss s ih =>
      obtain ⟨earlier, last⟩ := List.forall_mem_append.mp known
      rw [once_append]
      exact known_put (ih earlier) (last s (List.mem_singleton_self s))

/-- The options are those of the entries of the configuration, and then of the overrides. -/
theorem outcome_readOptions (configured : Configured i setup s r t) :
    Task.outcome (readOptions i) setup s =
      ((Configuration.applied Options.defaults r).bind fun base =>
        Configuration.applied base (overrideEntries i.overrides), t) := by
  unfold readOptions
  rw [Task.outcome_bind]
  cases configured with
  | none found =>
      rw [found]
      rfl
  | @file p r t u found loaded =>
      rw [found]
      change Task.outcome (Configuration.load p >>= fun r =>
        Task.ofExcept (Configuration.applied Options.defaults r) >>= fun base =>
          Task.ofExcept (Configuration.applied base (overrideEntries i.overrides))) setup _ = _
      rw [Task.outcome_bind, loaded]
      dsimp only
      rw [Task.outcome_bind]
      cases Configuration.applied Options.defaults r <;> rfl

/-- Entries that are not all settings of flags are refused. -/
theorem fails_of_refused (configured : Configured i setup s r t)
    (refused : ¬∃ ss : Settings, ss.Known ∧ r = ss.entries) :
    ∃ fault, Task.Fails (readOptions i) setup s (.option fault) := by
  have whole := outcome_readOptions configured
  unfold Configuration.applied at whole
  cases given : Options.ofRecord r Options.defaults with
  | error fault =>
      rw [given] at whole
      exact ⟨fault, t, whole⟩
  | ok base =>
      obtain ⟨ss, entries, known⟩ := Options.exists_settings_of_ofRecord given
      exact absurd ⟨ss, known, entries⟩ refused

theorem gives_readOptions {ss : Settings} (configured : Configured i setup s ss.entries t)
    (known : ss.Known) (overriding : Settings.Known i.overrides) :
    ∃ o, Task.Gives (readOptions i) setup s o t ∧
      ∀ f, o.enabled f = ((last? (once i.overrides) f).or (ss.last? f)).getD f.default := by
  obtain ⟨base, given, enabled⟩ := Options.ofRecord_entries known Options.defaults
  obtain ⟨o, given', enabled'⟩ := Options.ofRecord_entries (known_once overriding) base
  rw [← overrideEntries_eq] at given'
  refine ⟨o, ?_, fun f => ?_⟩
  · have whole := outcome_readOptions configured
    unfold Configuration.applied at whole
    rw [given] at whole
    dsimp only [Except.bind] at whole
    rw [given'] at whole
    exact whole
  · rw [enabled', enabled]
    cases last? (once i.overrides) f <;> rfl

/-- The options of an invocation whose overrides all name flags. If its configuration holds nothing but
settings, each flag is what the last override of it says, else what the last entry of the configuration
says, else its default, exactly if the last override is not overtaken. -/
theorem last_setting_wins_iff (configured : Configured i setup s r t)
    (overriding : Settings.Known i.overrides) :
    (∀ ss : Settings, ss.Known → r = ss.entries →
      ∃ o, Task.Gives (readOptions i) setup s o t ∧ ∀ f,
        (o.enabled f = ((last? i.overrides f).or (ss.last? f)).getD f.default ↔
          ¬Overtaken i.overrides f)) ∧
    ((¬∃ ss : Settings, ss.Known ∧ r = ss.entries) →
      ∃ fault, Task.Fails (readOptions i) setup s (.option fault)) := by
  refine ⟨fun ss known entries => ?_, fails_of_refused configured⟩
  subst entries
  obtain ⟨o, given, enabled⟩ := gives_readOptions configured known overriding
  refine ⟨o, given, fun f => ⟨fun same overtaken => ?_, fun sound => ?_⟩⟩
  · obtain ⟨last, said, opposite⟩ := overtaken.last?
    rw [enabled, said, opposite] at same
    simp at same
  · rw [enabled, last?_once_of_not_overtaken sound]

/-- A file that can be read is loaded. -/
theorem gives_load {p : Path} {fmt : Configuration.Format} {octets : List UInt8}
    (nameable : p.isNameable = true)
    (there : (Host.isFile p : StateM σ _).run s = (.ok true, t))
    (format : Configuration.Format.ofPath p = .ok fmt)
    (content : (Host.read p : StateM σ _).run t = (.ok octets, u))
    (given : fmt.read p octets = .ok r) : ∃ v, Task.Gives (Configuration.load p) setup s r v := by
  obtain ⟨v, logged⟩ := Task.gives_log Log.debug Configuration.logger
    ("Loaded " ++ toString r.length ++ " option(s) from " ++ p.text) setup u
  have found : Task.Gives (Configuration.isFile p) setup s true t := by
    unfold Configuration.isFile
    rw [if_pos nameable]
    exact Task.gives_reach.mpr there
  refine ⟨v, found.bind ?_⟩
  rw [if_neg (by simp), format]
  refine (Task.gives_onHost.mpr content).bind ?_
  dsimp only
  rw [given]
  exact Task.Gives.bind (t := u) rfl (logged.bind (Task.gives_pure.mpr ⟨rfl, rfl⟩))

/-- A working directory with a configuration file. -/
def configFolder (text : String) : Surroundings where
  files := FileTree.empty.addFile ["c.json"] text.toUTF8.toList
  directory := []
  input := ""
  output := ""
  errors := ""
  time := ""
  wording := id

theorem isFile_configFolder (text : String) :
    (Host.isFile (Path.ofString "c.json") : StateM Surroundings _).run (configFolder text) =
      (.ok true, configFolder text) := rfl

theorem read_configFolder (text : String) :
    (Host.read (Path.ofString "c.json") : StateM Surroundings _).run (configFolder text) =
      (.ok text.toUTF8.toList, configFolder text) := rfl

/-- An invocation with a configuration file and overrides in both spellings. -/
def mixedInvocation : Invocation :=
  { Invocation.plain with
    config := some "c.json"
    overrides := [("enable_checkbox", false), ("mermaid", true), ("enableCheckbox", true)] }

def fileSettings : Settings := [("parseTags", false), ("mermaid", false), ("parse_tags", true)]

def fileText : String := "\x7b\"parseTags\": false, \"mermaid\": false, \"parse_tags\": true\x7d"

theorem read_fileText :
    Configuration.Format.json.read (Path.ofString "c.json") fileText.toUTF8.toList =
      .ok fileSettings.entries := by
  unfold Configuration.Format.read
  rw [Text.ofOctets_toUTF8]
  cbv

theorem configured_fileSettings :
    ∃ t, Configured mixedInvocation .initial (configFolder fileText) fileSettings.entries t := by
  have format : Configuration.Format.ofPath (Path.ofString "c.json") = .ok .json := by decide +kernel
  have load : ∃ t, Task.Gives (Configuration.load (Path.ofString "c.json")) .initial
      (configFolder fileText) fileSettings.entries t :=
    gives_load (by decide) (isFile_configFolder fileText) format (read_configFolder fileText)
      read_fileText
  obtain ⟨t, loaded⟩ := load
  exact ⟨t, .file (Task.gives_pure.mpr ⟨rfl, rfl⟩) loaded⟩

theorem mixedSpellings_settled :
    ∃ t, Configured mixedInvocation .initial (configFolder fileText) fileSettings.entries t ∧
      Settings.Known mixedInvocation.overrides ∧
      ∃ o, Task.Gives (readOptions mixedInvocation) .initial (configFolder fileText) o t ∧
        o.enabled .enableCheckbox = true ∧ o.enabled .mermaid = true ∧
        o.enabled .parseTags = true ∧ o.enabled .disableBrokenWikilinks = false := by
  obtain ⟨t, configured⟩ := configured_fileSettings
  have overriding : Settings.Known mixedInvocation.overrides := by
    unfold Settings.Known
    decide
  have known : fileSettings.Known := by
    unfold Settings.Known
    decide
  obtain ⟨o, given, settled⟩ := (last_setting_wins_iff configured overriding).1 _ known rfl
  have sound (f : Flag) : ¬Overtaken mixedInvocation.overrides f := by
    intro overtaken
    obtain ⟨last, said, opposite⟩ := overtaken.last?
    have agree : (once mixedInvocation.overrides).last? f = last? mixedInvocation.overrides f := by
      cases f <;> decide
    simp [← agree, opposite] at said
  refine ⟨t, configured, overriding, o, given, ?_⟩
  refine ⟨((settled _).mpr (sound _)).trans ?_, ((settled _).mpr (sound _)).trans ?_,
    ((settled _).mpr (sound _)).trans ?_, ((settled _).mpr (sound _)).trans ?_⟩ <;> decide

/-- An invocation that sets a flag in one spelling, in the other, and in the first again. -/
def crossedInvocation : Invocation :=
  { Invocation.plain with
    noConfig := true
    overrides := [("enableCheckbox", true), ("enable_checkbox", false), ("enableCheckbox", true)] }

/-- The last override says that the flag is on, and it is off. -/
theorem crossedSpellings_overtaken :
    Configured crossedInvocation .initial (configFolder "") [] (configFolder "") ∧
      Settings.Known crossedInvocation.overrides ∧
      last? crossedInvocation.overrides .enableCheckbox = some true ∧
      ∃ o, Task.Gives (readOptions crossedInvocation) .initial (configFolder "") o (configFolder "") ∧
        o.enabled .enableCheckbox = false := by
  have configured : Configured crossedInvocation .initial (configFolder "") [] (configFolder "") :=
    .none (Task.gives_pure.mpr ⟨rfl, rfl⟩)
  have overriding : Settings.Known crossedInvocation.overrides := by
    unfold Settings.Known
    decide
  have empty : Configured crossedInvocation .initial (configFolder "") (Settings.entries [])
      (configFolder "") := configured
  obtain ⟨o, given, enabled⟩ := gives_readOptions empty nofun overriding
  refine ⟨configured, overriding, by decide, o, given, ?_⟩
  rw [enabled]
  decide

end CommandLine

end NoteMarkup
