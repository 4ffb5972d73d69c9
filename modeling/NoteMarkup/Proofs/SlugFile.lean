import Mathlib.Data.List.DropRight
import NoteMarkup.CommandLine.Command
import NoteMarkup.Proofs.Lines
import NoteMarkup.Proofs.SlugText
import NoteMarkup.Proofs.TaskRun
import NoteMarkup.Proofs.Utf8
import NoteMarkup.Stage.Links

/-! Files of known slugs. A slug holds nothing that a reader of lines takes for the end of a line, for a
blank or for the mark of a comment, so a file that lists the slugs of notes is read as these slugs, and
the links that are broken are those to other notes. -/

namespace NoteMarkup

namespace Text

variable {w s : List Char} {c : Char}

theorem isBlank_of_isLineEnd (h : isLineEnd c = true) : isBlank c = true := by
  simp only [isLineEnd, Bool.or_eq_true, beq_iff_eq] at h
  rcases h with ((((((((rfl | rfl) | rfl) | rfl) | rfl) | rfl) | rfl) | rfl) | rfl) | rfl <;> decide

theorem trim_append_blank (blank : isBlank c = true) (w : List Char) : trim (w ++ [c]) = trim w := by
  unfold trim trimLeft
  rw [List.dropWhile_append]
  split
  · next none =>
      rw [List.isEmpty_iff.mp none, List.dropWhile_cons_of_pos blank, List.dropWhile_nil]
  · exact List.rdropWhile_concat_pos isBlank _ c blank

/-- The first visible character of a text stays when it is trimmed. -/
theorem head?_trim (visible : isBlank c = false) (h : (trimLeft s).head? = some c) :
    (trim s).head? = some c := by
  obtain ⟨blanks, split⟩ : trim s <+: trimLeft s := List.rdropWhile_prefix isBlank _
  cases trimmed : trim s with
  | nil =>
      have all := List.rdropWhile_eq_nil_iff.mp trimmed c (List.mem_of_head? h)
      rw [visible] at all
      cases all
  | cons d r =>
      rw [trimmed] at split
      rw [← split] at h
      exact h

/-- What ends a line: a line end by itself, or a carriage return and a line feed. -/
def IsBoundary (e : List Char) : Prop := e = ['\r', '\n'] ∨ ∃ c, isLineEnd c = true ∧ e = [c]

end Text

namespace CommandLine

open Text

variable {w e s : List Char}

/-- What a line lists. -/
def listed? (line : List Char) : Option String :=
  if (trim line).isEmpty || (trim line).head? == some '#' then none
  else some (String.ofList (trim line))

/-- What the lines of a text list, in order. -/
def listed (s : List Char) : List String := (lines s).filterMap listed?

theorem slugLines_eq (text : String) : slugLines text = listed text.toList := by
  rw [slugLines, List.filterMap_map]
  rfl

theorem listed_line (free : ∀ c ∈ w, isLineEnd c = false) {c : Char} (ends : isLineEnd c = true)
    (single : c ≠ '\r') (s : List Char) : listed (w ++ c :: s) = (listed? w).toList ++ listed s := by
  have same : listed? (w ++ [c]) = listed? w := by
    rw [listed?, trim_append_blank (isBlank_of_isLineEnd ends), listed?]
  rw [listed, lines_append free ends single, List.filterMap_cons, same]
  cases listed? w <;> rfl

theorem listed_last (free : ∀ c ∈ w, isLineEnd c = false) : listed w = (listed? w).toList := by
  rw [listed, lines_of_free free]
  cases w with
  | nil => rfl
  | cons c w =>
      rw [List.isEmpty_cons, if_neg Bool.false_ne_true, List.filterMap_cons]
      cases listed? (c :: w) <;> rfl

theorem listed_lineFeed (s : List Char) : listed ('\n' :: s) = listed s :=
  listed_line (w := []) nofun rfl (by decide) s

/-- A line lists what it lists, whatever ends it. -/
theorem listed_append (free : ∀ c ∈ w, isLineEnd c = false) (boundary : IsBoundary e) (s : List Char) :
    listed (normalizeLines (w ++ e ++ s)) = (listed? w).toList ++ listed (normalizeLines s) := by
  rw [List.append_assoc, normalizeLines_append free]
  rcases boundary with rfl | ⟨c, ends, rfl⟩
  · exact listed_line free rfl (by decide) _
  · by_cases single : c = '\r'
    · subst single
      -- the carriage return and a line feed after it end the line together
      by_cases pair : s.head? = some '\n'
      · obtain ⟨r, rfl⟩ := List.head?_eq_some_iff.mp pair
        rw [normalizeLines_cons (by decide), listed_lineFeed]
        exact listed_line free rfl (by decide) _
      · rw [List.singleton_append, normalizeLines_return pair]
        exact listed_line free rfl (by decide) _
    · rw [List.singleton_append, normalizeLines_cons single]
      exact listed_line free ends single _

/-- A line that is blank or a comment. -/
structure Skipped (line : List Char) : Prop where
  free : ∀ c ∈ line, isLineEnd c = false
  skipped : trimLeft line = [] ∨ (trimLeft line).head? = some '#'

/-- A text lists the slugs of paths, each on a line of its own, among lines that list nothing. -/
inductive Lists : List String → List Char → Prop where
  | lastPath {path : String} (some : Slug.ofTarget path ≠ "") :
      Lists [path] (Slug.ofTarget path).toList
  | lastSkipped {line : List Char} (skipped : Skipped line) : Lists [] line
  | path {path : String} {paths : List String} {e rest : List Char} (some : Slug.ofTarget path ≠ "")
      (boundary : IsBoundary e) (later : Lists paths rest) :
      Lists (path :: paths) ((Slug.ofTarget path).toList ++ e ++ rest)
  | skipped {line e rest : List Char} {paths : List String} (skipped : Skipped line)
      (boundary : IsBoundary e) (later : Lists paths rest) : Lists paths (line ++ e ++ rest)

variable {path : String} {paths : List String}

theorem free_ofTarget (path : String) : ∀ c ∈ (Slug.ofTarget path).toList, isLineEnd c = false := by
  intro c member
  by_contra ends
  have blank := isBlank_of_isLineEnd (Bool.not_eq_false _ ▸ ends)
  rw [(Slug.isPlain_of_mem_page member).visible] at blank
  cases blank

/-- A slug is listed as it is. -/
theorem listed?_ofTarget (some : Slug.ofTarget path ≠ "") :
    listed? (Slug.ofTarget path).toList = .some (Slug.ofTarget path) := by
  have trimmed : trim (Slug.ofTarget path).toList = (Slug.ofTarget path).toList :=
    trim_eq_self fun c member => (Slug.isPlain_of_mem_page member).visible
  have isSome : (Slug.ofTarget path).toList.isEmpty = false := by simpa using some
  have noComment : ((Slug.ofTarget path).toList.head? == .some '#') = false := by
    rw [beq_eq_false_iff_ne]
    intro mark
    exact (Slug.isPlain_of_mem_page (List.mem_of_head? mark)).other (by decide)
  rw [listed?, trimmed, isSome, noComment, Bool.or_self, if_neg Bool.false_ne_true,
    String.ofList_toList]

theorem Skipped.listed? {line : List Char} (h : Skipped line) : listed? line = none := by
  unfold CommandLine.listed?
  rcases h.skipped with blank | comment
  · have none : trim line = [] := by rw [trim, blank]; rfl
    rw [none]
    rfl
  · rw [head?_trim (by decide) comment, beq_self_eq_true, Bool.or_true, if_pos rfl]

/-- A text lists the slugs that it is meant to list. -/
theorem Lists.listed {s : List Char} (h : Lists paths s) :
    listed (normalizeLines s) = paths.map Slug.ofTarget := by
  induction h with
  | @lastPath path some =>
      rw [normalizeLines_of_free (free_ofTarget path), listed_last (free_ofTarget path),
        listed?_ofTarget some]
      rfl
  | lastSkipped skipped =>
      rw [normalizeLines_of_free skipped.free, listed_last skipped.free, skipped.listed?]
      rfl
  | @path path paths e rest some boundary later ih =>
      rw [listed_append (free_ofTarget path) boundary, listed?_ofTarget some, ih]
      rfl
  | skipped skipped boundary later ih =>
      rw [listed_append skipped.free boundary, skipped.listed?, ih]
      rfl

section Reading

variable {σ : Type} [Host (StateM σ)] {name : String} {setup : LogSetup.Setup} {s t : σ}

theorem gives_readText (setup : LogSetup.Setup) {text : String} (isFile : name ≠ standardInput)
    (nameable : (Path.ofString name).isNameable = true)
    (read : (Host.read (Path.ofString name) : StateM σ _).run s = (.ok text.toUTF8.toList, t)) :
    Task.Gives (readText name) setup s (String.ofList (normalizeLines text.toList)) t := by
  rw [readText, if_neg (by simpa using isFile)]
  refine (Task.gives_of_nameable nameable).bind ((Task.gives_onHost.mpr read).bind ?_)
  dsimp only
  rw [ofOctets_toUTF8]
  exact Task.gives_pure.mpr ⟨rfl, rfl⟩

theorem gives_readSlugs {text : String} (given : Task.Gives (readText name) setup s text t) :
    ∃ u, Task.Gives (readSlugs name) setup s (slugsOf text) u := by
  obtain ⟨u, logged⟩ := Task.gives_log Log.debug logger
    ("Loaded " ++ toString (slugsOf text).length ++ " known slug(s) from " ++ name) setup t
  exact ⟨u, given.bind (logged.bind (Task.gives_pure.mpr ⟨rfl, rfl⟩))⟩

end Reading

/-- A link is broken when its slug is not among the known ones. -/
theorem broken_iff {target : String} {known : List String} {c : Context} {o : Options}
    (anchor label : Option String) (some : target ≠ "") (isNote : MediaUrl.isExternal target = false)
    (marked : o.enabled .disableBrokenWikilinks = true) (listed : c.knownSlugs = .some known) :
    (Stage.Links.resolve target anchor label c o).broken = true ↔ Slug.ofTarget target ∉ known := by
  have isSome : target.isEmpty = false := by simpa using some
  have decided : c.slugExists (Slug.ofTarget target) = known.contains (Slug.ofTarget target) := by
    rw [Context.slugExists, listed]
  simp only [Stage.Links.resolve, isNote, isSome, marked, decided, Bool.true_and, Bool.false_eq_true,
    if_false]
  by_cases member : Slug.ofTarget target ∈ known
  · simp [member]
  · simp [member]

variable {σ : Type} [Host (StateM σ)] {name : String} {setup : LogSetup.Setup} {s t : σ}

/-- A file that lists the slugs of notes is read as these slugs, and among links to notes those are
broken that lead to none of them. -/
theorem listed_notes_known (setup : LogSetup.Setup) {text : String} (isFile : name ≠ standardInput)
    (nameable : (Path.ofString name).isNameable = true)
    (read : (Host.read (Path.ofString name) : StateM σ _).run s = (.ok text.toUTF8.toList, t))
    (lists : Lists paths text.toList) :
    ∃ slugs u, Task.Gives (readSlugs name) setup s slugs u ∧
      slugs = (paths.map Slug.ofTarget).eraseDups ∧
      ∀ (c : Context) (o : Options) (target : String) (anchor label : Option String),
        c.knownSlugs = some slugs → o.enabled .disableBrokenWikilinks = true → target ≠ "" →
        MediaUrl.isExternal target = false →
        ((Stage.Links.resolve target anchor label c o).broken = true ↔
          ∀ path ∈ paths, Slug.ofTarget target ≠ Slug.ofTarget path) := by
  obtain ⟨u, given⟩ := gives_readSlugs (gives_readText setup isFile nameable read)
  have slugs : slugsOf (String.ofList (normalizeLines text.toList)) =
      (paths.map Slug.ofTarget).eraseDups := by
    rw [slugsOf, slugLines_eq, String.toList_ofList, lists.listed]
  refine ⟨_, u, given, slugs, fun c o target anchor label known marked some isNote => ?_⟩
  rw [broken_iff anchor label some isNote marked known, slugs, List.mem_eraseDups, List.mem_map]
  constructor
  · intro other path member same
    exact other ⟨path, member, same.symm⟩
  · rintro other ⟨path, member, same⟩
    exact other path member same.symm

/-- A working directory with a file of slugs. -/
def slugFolder (text : String) : Surroundings where
  files := FileTree.empty.addFile ["slugs.txt"] text.toUTF8.toList
  directory := []
  input := ""
  output := ""
  errors := ""
  time := ""
  wording := id

theorem read_slugFolder (text : String) :
    (Host.read (Path.ofString "slugs.txt") : StateM Surroundings _).run (slugFolder text) =
      (.ok text.toUTF8.toList, slugFolder text) := rfl

theorem twoNotes_listed : Lists ["A note.md", "Projects/_index.md"]
    "# Notes\nA-note\r\n\nProjects/index\n".toList := by
  have lineFeed : IsBoundary ['\n'] := .inr ⟨'\n', rfl, rfl⟩
  have blank : Skipped [] := ⟨nofun, .inl rfl⟩
  have last : Lists ["Projects/_index.md"]
      ((Slug.ofTarget "Projects/_index.md").toList ++ ['\n'] ++ []) :=
    .path (by decide) lineFeed (.lastSkipped blank)
  have first : Lists ["A note.md", "Projects/_index.md"] ((Slug.ofTarget "A note.md").toList ++
      ['\r', '\n'] ++ ([] ++ ['\n'] ++
        ((Slug.ofTarget "Projects/_index.md").toList ++ ['\n'] ++ []))) :=
    .path (by decide) (.inl rfl) (.skipped blank lineFeed last)
  have free : ("# Notes".toList.all fun c => !isLineEnd c) = true := by decide
  have all : Lists ["A note.md", "Projects/_index.md"] ("# Notes".toList ++ ['\n'] ++ _) :=
    .skipped ⟨by simpa using free, .inr (by decide)⟩ lineFeed first
  have text : "# Notes".toList ++ ['\n'] ++ ((Slug.ofTarget "A note.md").toList ++
      ['\r', '\n'] ++ ([] ++ ['\n'] ++
        ((Slug.ofTarget "Projects/_index.md").toList ++ ['\n'] ++ []))) =
      "# Notes\nA-note\r\n\nProjects/index\n".toList := by decide
  exact text ▸ all

theorem twoNotes_known :
    ∃ slugs u, Task.Gives (readSlugs "slugs.txt") .initial
        (slugFolder "# Notes\nA-note\r\n\nProjects/index\n") slugs u ∧
      slugs = ["A-note", "Projects/index"] ∧
      (Stage.Links.resolve "A note" none none (Context.new "n" (some slugs))
        (Options.defaults.set .disableBrokenWikilinks true)).broken = false ∧
      (Stage.Links.resolve "Projects" none none (Context.new "n" (some slugs))
        (Options.defaults.set .disableBrokenWikilinks true)).broken = true := by
  obtain ⟨slugs, u, given, all, broken⟩ := listed_notes_known .initial (by decide)
    (by decide) (read_slugFolder _) twoNotes_listed
  have marked : (Options.defaults.set .disableBrokenWikilinks true).enabled
      .disableBrokenWikilinks = true := by decide
  refine ⟨slugs, u, given, all.trans (by decide), ?_, ?_⟩
  · have known := broken (Context.new "n" (some slugs)) _ "A note" none none rfl marked (by decide)
      (by decide)
    rw [Bool.eq_false_iff, Ne, known]
    decide
  · exact (broken (Context.new "n" (some slugs)) _ "Projects" none none rfl marked (by decide)
      (by decide)).mpr (by decide)

end CommandLine

end NoteMarkup
