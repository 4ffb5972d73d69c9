import NoteMarkup.MediaUrl
import NoteMarkup.Proofs.Lines
import NoteMarkup.Proofs.SlugText

/-! Addresses of the player site. A video is named by the parameter `v` of a query, or by the path, and the
mark of its id is the last one in the address: what comes after the id are parameters, and no mark can start
in them. So every spelling of a link gives the same address for the player. -/

namespace NoteMarkup.MediaUrl

open Text

variable {s w rest front id : List Char} {c : Char}

/-! ### Queries -/

/-- A text with nothing in it that separates the parts of an address. -/
def IsField (w : List Char) : Prop := ∀ c ∈ w, c ∉ ['&', '?', '#', '/', '=', '\n']

structure Param where
  name : List Char
  value : List Char

variable {ps : List Param} {p : Param}

def Param.text (p : Param) : List Char := p.name ++ '=' :: p.value

def Param.IsFree (p : Param) : Prop := IsField p.name ∧ IsField p.value

def queryText (ps : List Param) : List Char := '?' :: joinWith ['&'] (ps.map Param.text)

/-- The text asks for the parameters, each after a separator. -/
inductive Asks : List Param → List Char → Prop
  | nothing : Asks [] []
  | bare : Asks [] ['?']
  | param {sep : Char} {p : Param} {ps : List Param} {s : List Char} (isSep : sep = '?' ∨ sep = '&')
      (more : Asks ps s) : Asks (p :: ps) (sep :: (p.text ++ s))

/-! ### Marks of a video id -/

def plainMarks : List String := ["youtu.be/", "v/", "embed/", "watch?v=", "&v="]

/-- The parameter `v` is set in the text. -/
def SetsVideo (s : List Char) : Prop :=
  ∃ front sep back, (sep = '?' ∨ sep = '&') ∧ s = front ++ sep :: 'v' :: '=' :: back

theorem mark_slash_or_setsVideo (h : afterVideoMark? s = some rest) : '/' ∈ s ∨ SetsVideo s := by
  unfold afterVideoMark? at h
  dsimp only at h
  change (Option.orElse (plainMarks.findSome? fun m => afterFront? m.toList s) _) = _ at h
  cases plain : plainMarks.findSome? fun m =>
      afterFront? m.toList s with
  | none =>
      rw [plain, Option.orElse_none] at h
      split at h
      · exact .inl (by simp)
      · cases h
  | some r =>
      obtain ⟨mark, member, found⟩ := List.exists_of_findSome?_eq_some plain
      rw [eq_of_afterFront? found]
      simp only [plainMarks, List.mem_cons, List.not_mem_nil, or_false] at member
      rcases member with rfl | rfl | rfl | rfl | rfl
      · exact .inl (by simp)
      · exact .inl (by simp)
      · exact .inl (by simp)
      · exact .inr ⟨"watch".toList, '?', r, .inl rfl, rfl⟩
      · exact .inr ⟨[], '&', r, .inr rfl, rfl⟩

theorem lastVideoMark?_eq_none (noSlash : '/' ∉ s) (unset : ¬SetsVideo s) : lastVideoMark? s = none := by
  induction s with
  | nil => rfl
  | cons c s ih =>
      have later : lastVideoMark? s = none := by
        refine ih (fun inside => noSlash (List.mem_cons_of_mem _ inside)) ?_
        rintro ⟨front, sep, back, isSep, rfl⟩
        exact unset ⟨c :: front, sep, back, isSep, rfl⟩
      have here : afterVideoMark? (c :: s) = none := by
        rw [Option.eq_none_iff_forall_ne_some]
        intro rest found
        exact (mark_slash_or_setsVideo found).elim noSlash unset
      rw [lastVideoMark?, later, here]
      split <;> simp_all

theorem lastVideoMark?_append (oneLine : '\n' ∉ front) (found : lastVideoMark? s = some rest) :
    lastVideoMark? (front ++ s) = some rest := by
  induction front with
  | nil => exact found
  | cons c front ih =>
      obtain ⟨other, later⟩ := not_or.mp (mt List.mem_cons.mpr oneLine)
      rw [List.cons_append, lastVideoMark?, if_neg (by simpa using Ne.symm other), ih later]

theorem lastVideoMark?_mark {mark : String} (isMark : mark ∈ plainMarks)
    (later : lastVideoMark? rest = none) : lastVideoMark? (mark.toList ++ rest) = some rest := by
  simp only [plainMarks, List.mem_cons, List.not_mem_nil, or_false] at isMark
  rcases isMark with rfl | rfl | rfl | rfl | rfl
  all_goals simp [lastVideoMark?, afterVideoMark?, afterFront?, later]

/-! ### What a query asks for -/

theorem Asks.text_not_mem (h : Asks ps s) (free : ∀ p ∈ ps, p.IsFree) (d : Char)
    (isMark : d ∈ ['#', '/', '\n']) : d ∉ s := by
  induction h with
  | nothing => exact List.not_mem_nil
  | bare =>
      intro inside
      rw [List.mem_singleton.mp inside] at isMark
      revert isMark
      decide
  | @param sep p ps s isSep more ih =>
      obtain ⟨⟨name, value⟩, later⟩ := List.forall_mem_cons.mp free
      have apart : ∀ w, IsField w → d ∉ w := by
        intro w field inside
        refine field d inside ?_
        simp only [List.mem_cons, List.not_mem_nil, or_false] at isMark ⊢
        tauto
      rw [Param.text, List.mem_cons, List.mem_append, List.mem_append, List.mem_cons]
      rintro (rfl | (inName | rfl | inValue) | inMore)
      · rcases isSep with rfl | rfl <;> revert isMark <;> decide
      · exact apart _ name inName
      · revert isMark
        decide
      · exact apart _ value inValue
      · exact ih later inMore

theorem setsVideo_of_append (plain : ∀ c ∈ w, c ≠ '?' ∧ c ≠ '&') (h : SetsVideo (w ++ s)) :
    SetsVideo s := by
  induction w with
  | nil => exact h
  | cons c w ih =>
      obtain ⟨other, later⟩ := List.forall_mem_cons.mp plain
      obtain ⟨front, sep, back, isSep, split⟩ := h
      cases front with
      | nil =>
          obtain ⟨rfl, -⟩ := List.cons.inj split
          exact (isSep.elim other.1 other.2).elim
      | cons d front => exact ih later ⟨front, sep, back, isSep, (List.cons.inj split).2⟩

theorem playlistId?_append (plain : ∀ c ∈ w, c ≠ '?' ∧ c ≠ '&') (s : List Char) :
    playlistId? (w ++ s) = playlistId? s := by
  induction w with
  | nil => rfl
  | cons c w ih =>
      obtain ⟨other, later⟩ := List.forall_mem_cons.mp plain
      rw [List.cons_append, playlistId?, if_neg (by simpa using other)]
      exact ih later

theorem Param.name_eq (name : List Char) {value : List Char} (free : '=' ∉ p.name) (free' : '=' ∉ name)
    (same : p.text ++ s = name ++ '=' :: value) : p.name = name := by
  rw [Param.text, List.append_assoc, List.cons_append] at same
  have cut := congrArg (cutAt '=') same
  rw [cutAt_append free, cutAt_append free'] at cut
  have parts : p.name = name ∧ p.value ++ s = value := by simpa [cutAt] using cut
  exact parts.1

theorem IsField.not_mem (h : IsField w) (isMark : c ∈ ['&', '?', '#', '/', '=', '\n']) : c ∉ w :=
  fun inside => h c inside isMark

theorem isField_of_checked (h : (w.all fun c => decide (c ∉ ['&', '?', '#', '/', '=', '\n'])) = true) :
    IsField w :=
  fun c inside => of_decide_eq_true (List.all_eq_true.mp h c inside)

theorem IsField.isIdChar (h : IsField w) (inside : c ∈ w) : isIdChar c = true := by
  have other := h c inside
  simp only [List.mem_cons, List.not_mem_nil, or_false, not_or] at other
  simp [MediaUrl.isIdChar, other]

theorem IsField.plain (h : IsField w) : ∀ c ∈ w, c ≠ '?' ∧ c ≠ '&' := by
  intro c inside
  have other := h c inside
  simp only [List.mem_cons, List.not_mem_nil, or_false, not_or] at other
  exact ⟨other.2.1, other.1⟩

theorem Param.IsFree.plain (h : p.IsFree) : ∀ c ∈ p.text, c ≠ '?' ∧ c ≠ '&' := by
  intro c inside
  rcases List.mem_append.mp inside with inName | later
  · exact h.1.plain c inName
  · rcases List.mem_cons.mp later with rfl | inValue
    · decide
    · exact h.2.plain c inValue

/-- A query sets `v` only if it has a parameter of that name. -/
theorem Asks.not_setsVideo (h : Asks ps s) (free : ∀ p ∈ ps, p.IsFree)
    (unnamed : ∀ p ∈ ps, p.name ≠ ['v']) : ¬SetsVideo s := by
  induction h with
  | nothing =>
      rintro ⟨front, sep, back, -, split⟩
      simp at split
  | bare =>
      rintro ⟨front, sep, back, -, split⟩
      have long := congrArg List.length split
      simp only [List.length_append, List.length_cons, List.length_nil] at long
      omega
  | @param first p ps s isFirst more ih =>
      obtain ⟨here, later⟩ := List.forall_mem_cons.mp free
      obtain ⟨other, unnamed⟩ := List.forall_mem_cons.mp unnamed
      rintro ⟨front, sep, back, isSep, split⟩
      cases front with
      | nil =>
          exact other (Param.name_eq ['v'] (here.1.not_mem (by decide)) (by decide)
            (List.cons.inj split).2)
      | cons c front =>
          exact ih later unnamed
            (setsVideo_of_append here.plain ⟨front, sep, back, isSep, (List.cons.inj split).2⟩)

theorem Asks.head_isSep (h : Asks ps s) (c : Char) (head : s.head? = some c) : isIdChar c = false := by
  cases h with
  | nothing => cases head
  | bare =>
      obtain rfl := Option.some.inj head
      rfl
  | param isSep more =>
      obtain rfl := Option.some.inj head
      rcases isSep with rfl | rfl <;> rfl

/-- The first playlist that a query names is the value of its first parameter `list`. -/
theorem playlistId?_of_asks (h : Asks ps s) (free : ∀ p ∈ ps, p.IsFree) :
    playlistId? s = (ps.find? fun p => p.name == "list".toList).map Param.value := by
  induction h with
  | nothing => rfl
  | bare => rfl
  | @param sep p ps s isSep more ih =>
      obtain ⟨here, later⟩ := List.forall_mem_cons.mp free
      have atSep : (sep == '?' || sep == '&') = true := by simpa using isSep
      rw [playlistId?, if_pos atSep]
      by_cases named : p.name = "list".toList
      · have found : afterFront? "list=".toList (p.text ++ s) = some (p.value ++ s) := by
          rw [afterFront?_eq_some_iff, Param.text, named]
          rfl
        rw [found, List.find?_cons_of_pos (by simpa using named)]
        exact congrArg some (takeWhile_append_stop (fun c => here.2.isIdChar) (more.head_isSep))
      · have missed : afterFront? "list=".toList (p.text ++ s) = none := by
          rw [Option.eq_none_iff_forall_ne_some]
          intro rest found
          have text : p.text ++ s = "list=".toList ++ rest := eq_of_afterFront? found
          exact named (Param.name_eq "list".toList (here.1.not_mem (by decide)) (by decide) text)
        rw [missed, List.find?_cons_of_neg (by simpa using named), ← ih later]
        exact playlistId?_append here.plain s

/-! ### Queries as they are written -/

def moreText (ps : List Param) : List Char := ps.flatMap fun p => '&' :: p.text

theorem queryText_cons (p : Param) (ps : List Param) :
    queryText (p :: ps) = '?' :: (p.text ++ moreText ps) := by
  rw [queryText]
  congr 1
  induction ps generalizing p with
  | nil => simp [joinWith, moreText]
  | cons q ps ih =>
      rw [List.map_cons, joinWith_cons (by simp), ih q]
      rfl

theorem asks_moreText (ps : List Param) : Asks ps (moreText ps) := by
  induction ps with
  | nil => exact .nothing
  | cons p ps ih => exact .param (.inr rfl) ih

theorem asks_queryText (ps : List Param) : Asks ps (queryText ps) := by
  cases ps with
  | nil => exact .bare
  | cons p ps =>
      rw [queryText_cons]
      exact .param (.inl rfl) (asks_moreText ps)

/-! ### Links -/

/-- A text of letters, digits, `-` and `_`. -/
def IsId (w : List Char) : Prop := ∀ c ∈ w, TagText.isTagChar c = true

theorem IsId.isField (h : IsId w) : IsField w := by
  have marks : ['&', '?', '#', '/', '=', '\n'].all (fun c => !TagText.isTagChar c) = true := by decide
  intro c inside isMark
  have other := List.all_eq_true.mp marks c isMark
  rw [h c inside] at other
  cases other

/-- The parameters of a query: at most one `v` and one `list`, and any others. -/
structure Query (ps : List Param) (video playlist : Option (List Char)) : Prop where
  video : (ps.filter fun p => p.name == "v".toList).map Param.value = video.toList
  playlist : (ps.filter fun p => p.name == "list".toList).map Param.value = playlist.toList
  others : ∀ p ∈ ps, p.name ≠ "v".toList → p.name ≠ "list".toList → p.IsFree

def sites : List String :=
  ["http://", "http://www.", "http://m.", "https://", "https://www.", "https://m."]

def hosts : List String := ["youtube.com", "youtu.be"]

/-- What can stand before a video id in a path. -/
def places : List String :=
  ["youtu.be/", "youtube.com/embed/", "youtube.com/v/", "youtu.be/embed/", "youtu.be/v/"]

/-- The address is a link to a video, and to a playlist that it is taken from. -/
inductive IsLink (id : List Char) (playlist : Option (List Char)) : List Char → Prop
  | watch {site host : String} {ps : List Param} (isSite : site ∈ sites) (isHost : host ∈ hosts)
      (query : Query ps (some id) playlist) :
      IsLink id playlist (site.toList ++ host.toList ++ "/watch".toList ++ queryText ps)
  | path {site place : String} {asked : Option (List Param)} (isSite : site ∈ sites)
      (isPlace : place ∈ places) (query : Query (asked.getD []) none playlist) :
      IsLink id playlist (site.toList ++ place.toList ++ id ++ (asked.map queryText).getD [])

theorem afterPlayerHost?_isSome {site host : String} (isSite : site ∈ sites) (isHost : host ∈ hosts)
    (path : List Char) :
    (afterPlayerHost? (site.toList ++ host.toList ++ '/' :: path)).isSome = true := by
  simp only [sites, hosts, List.mem_cons, List.not_mem_nil, or_false] at isSite isHost
  rcases isSite with rfl | rfl | rfl | rfl | rfl | rfl <;> rcases isHost with rfl | rfl <;> rfl

theorem videoId?_of_mark {after : List Param} (field : IsField id) (eleven : id.length = 11)
    (asked : Asks after rest) (found : lastVideoMark? s = some (id ++ rest)) : videoId? s = some id := by
  have ends : (id ++ rest).takeWhile isIdChar = id :=
    takeWhile_append_stop (fun c => field.isIdChar) asked.head_isSep
  rw [videoId?, found]
  simp only [Option.bind_eq_bind, Option.bind_some, ends]
  rw [if_pos (by simpa using eleven)]

theorem lastVideoMark?_rest {after : List Param} {mark : String} (field : IsField id)
    (free : ∀ p ∈ after, p.IsFree) (unnamed : ∀ p ∈ after, p.name ≠ ['v']) (asked : Asks after rest)
    (isMark : mark ∈ plainMarks) (oneLine : '\n' ∉ front) :
    lastVideoMark? (front ++ (mark.toList ++ (id ++ rest))) = some (id ++ rest) := by
  refine lastVideoMark?_append oneLine (lastVideoMark?_mark isMark (lastVideoMark?_eq_none ?_ ?_))
  · rw [List.mem_append, not_or]
    exact ⟨field.not_mem (by decide), asked.text_not_mem free '/' (by decide)⟩
  · intro sets
    exact asked.not_setsVideo free unnamed (setsVideo_of_append field.plain sets)

namespace Query

variable {video playlist : Option (List Char)}

theorem free (h : Query ps video playlist) (ofVideo : ∀ v ∈ video, IsField v)
    (ofPlaylist : ∀ l ∈ playlist, IsField l) : ∀ p ∈ ps, p.IsFree := by
  intro p member
  by_cases isVideo : p.name = "v".toList
  · have value : p.value ∈ video.toList := by
      rw [← h.video]
      exact List.mem_map_of_mem (List.mem_filter.mpr ⟨member, by simpa using isVideo⟩)
    refine ⟨?_, ofVideo _ (Option.mem_toList.mp value)⟩
    rw [isVideo]
    exact isField_of_checked (by decide)
  by_cases isPlaylist : p.name = "list".toList
  · have value : p.value ∈ playlist.toList := by
      rw [← h.playlist]
      exact List.mem_map_of_mem (List.mem_filter.mpr ⟨member, by simpa using isPlaylist⟩)
    refine ⟨?_, ofPlaylist _ (Option.mem_toList.mp value)⟩
    rw [isPlaylist]
    exact isField_of_checked (by decide)
  exact h.others p member isVideo isPlaylist

theorem find_playlist (h : Query ps video playlist) :
    (ps.find? fun p => p.name == "list".toList).map Param.value = playlist := by
  rw [← List.head?_filter, ← List.head?_map, h.playlist]
  cases playlist <;> rfl

/-- The parameter `v` stands between others, none of which sets it again. -/
theorem split (h : Query ps (some id) playlist) :
    ∃ before after, ps = before ++ ⟨"v".toList, id⟩ :: after ∧ ∀ p ∈ after, p.name ≠ ['v'] := by
  obtain ⟨⟨name, value⟩, alone, rfl⟩ := List.map_eq_singleton_iff.mp h.video
  obtain ⟨before, after, rfl, -, named, others⟩ := List.filter_eq_cons_iff.mp alone
  obtain rfl : name = "v".toList := by simpa using named
  refine ⟨before, after, rfl, fun p member same => ?_⟩
  exact List.filter_eq_nil_iff.mp others p member (by simpa using same)

theorem unnamed (h : Query ps none playlist) : ∀ p ∈ ps, p.name ≠ ['v'] := by
  intro p member same
  have none := List.map_eq_nil_iff.mp h.video
  exact List.filter_eq_nil_iff.mp none p member (by simpa using same)

end Query

/-- The address for the player, with the playlist that goes on after the video. -/
def embedAddress (id : List Char) (playlist : Option (List Char)) : String :=
  embedBase ++ String.ofList id ++ (playlist.map fun l => "?list=" ++ String.ofList l).getD ""

theorem playerEmbed?_eq {url : String} {playlist : Option (List Char)}
    (atHost : (afterPlayerHost? url.toList).isSome = true) (video : videoId? url.toList = some id)
    (listed : playlistId? url.toList = playlist) (present : ∀ l ∈ playlist, l ≠ []) :
    playerEmbed? url = some (embedAddress id playlist) := by
  obtain ⟨path, found⟩ := Option.isSome_iff_exists.mp atHost
  have kept : playlist.filter (fun l => !l.isEmpty) = playlist := by
    cases playlist with
    | none => rfl
    | some l => simpa using present l rfl
  simp only [playerEmbed?, found, video, listed, kept, embedAddress, Option.bind_eq_bind, Option.bind_some]
  cases playlist <;> simp [String.append_assoc]

/-- A part of an address that holds neither the end of a line nor a separator of parameters. -/
def IsFront (w : List Char) : Prop := ∀ c ∈ w, c ≠ '\n' ∧ c ≠ '?' ∧ c ≠ '&'

theorem isFront_of_mem {words : List String} {word : String} (h : word ∈ words)
    (checked : (words.all fun w => w.toList.all fun c => decide (c ≠ '\n' ∧ c ≠ '?' ∧ c ≠ '&')) = true) :
    IsFront word.toList :=
  fun c inside => of_decide_eq_true
    (List.all_eq_true.mp (List.all_eq_true.mp checked word h) c inside)

theorem IsFront.append (h : IsFront w) (h' : IsFront s) : IsFront (w ++ s) :=
  fun c inside => (List.mem_append.mp inside).elim (h c) (h' c)

theorem IsField.isFront (h : IsField w) : IsFront w :=
  fun c inside => ⟨fun same => h.not_mem (by decide) (same ▸ inside), h.plain c inside⟩

theorem place_hosted {place : String} (h : place ∈ places) :
    ∃ host ∈ hosts, ∃ path, place.toList = host.toList ++ '/' :: path := by
  simp only [places, List.mem_cons, List.not_mem_nil, or_false] at h
  rcases h with rfl | rfl | rfl | rfl | rfl
  · exact ⟨"youtu.be", by decide, [], rfl⟩
  · exact ⟨"youtube.com", by decide, "embed/".toList, rfl⟩
  · exact ⟨"youtube.com", by decide, "v/".toList, rfl⟩
  · exact ⟨"youtu.be", by decide, "embed/".toList, rfl⟩
  · exact ⟨"youtu.be", by decide, "v/".toList, rfl⟩

theorem place_marked {place : String} (h : place ∈ places) :
    ∃ front mark, mark ∈ plainMarks ∧ place.toList = front ++ mark.toList := by
  simp only [places, List.mem_cons, List.not_mem_nil, or_false] at h
  rcases h with rfl | rfl | rfl | rfl | rfl
  · exact ⟨[], "youtu.be/", by decide, rfl⟩
  · exact ⟨"youtube.com/".toList, "embed/", by decide, rfl⟩
  · exact ⟨"youtube.com/".toList, "v/", by decide, rfl⟩
  · exact ⟨"youtu.be/".toList, "embed/", by decide, rfl⟩
  · exact ⟨"youtu.be/".toList, "v/", by decide, rfl⟩

theorem playlistId?_of_query {video playlist : Option (List Char)} (query : Query ps video playlist)
    (free : ∀ p ∈ ps, p.IsFree) (asked : Asks ps s) (isFront : IsFront front) :
    playlistId? (front ++ s) = playlist := by
  rw [playlistId?_append fun c inside => (isFront c inside).2, playlistId?_of_asks asked free,
    query.find_playlist]

/-- In the query of a link the parameter `v` comes first or after `&`, and has a mark either way. -/
theorem watch_marked {page : List Char} {before : List Param} (oneLine : '\n' ∉ page)
    (free : ∀ p ∈ before, p.IsFree) (id : List Char) (after : List Param) :
    ∃ front mark, '\n' ∉ front ∧ mark ∈ plainMarks ∧
      page ++ "/watch".toList ++ queryText (before ++ ⟨"v".toList, id⟩ :: after) =
        front ++ (mark.toList ++ (id ++ moreText after)) := by
  cases before with
  | nil =>
      refine ⟨page ++ ['/'], "watch?v=", ?_, by decide, ?_⟩
      · rw [List.mem_append, not_or]
        exact ⟨oneLine, by decide⟩
      · rw [List.nil_append, queryText_cons]
        simp [Param.text]
  | cons p before =>
      refine ⟨page ++ "/watch".toList ++ queryText (p :: before), "&v=", ?_, by decide, ?_⟩
      · rw [List.mem_append, List.mem_append, not_or, not_or]
        exact ⟨⟨oneLine, by decide⟩, (asks_queryText _).text_not_mem free _ (by decide)⟩
      · rw [List.cons_append, queryText_cons, queryText_cons, moreText, List.flatMap_append,
          List.flatMap_cons]
        simp [moreText, Param.text]

theorem asks_tail (asked : Option (List Param)) :
    Asks (asked.getD []) ((asked.map queryText).getD []) := by
  cases asked with
  | none => exact .nothing
  | some ps => exact asks_queryText ps

theorem IsFront.oneLine (h : IsFront w) : '\n' ∉ w := fun inside => (h _ inside).1 rfl

/-- Every spelling of a link to a video gives the address for the player that the others give. -/
theorem player_link_embedded {url : String} {playlist : Option (List Char)}
    (link : IsLink id playlist url.toList) (isId : IsId id) (eleven : id.length = 11)
    (isPlaylist : ∀ l ∈ playlist, l ≠ [] ∧ IsId l) :
    playerEmbed? url = some (embedAddress id playlist) := by
  have field := isId.isField
  have ofPlaylist : ∀ l ∈ playlist, IsField l := fun l member => (isPlaylist l member).2.isField
  have present : ∀ l ∈ playlist, l ≠ [] := fun l member => (isPlaylist l member).1
  generalize address : url.toList = s at link
  cases link with
  | @watch site host ps isSite isHost query =>
      have free := query.free (fun v member => Option.some.inj member ▸ field) ofPlaylist
      have page : IsFront (site.toList ++ host.toList) :=
        (isFront_of_mem isSite (by decide)).append (isFront_of_mem isHost (by decide))
      refine playerEmbed?_eq ?_ ?_ ?_ present <;> rw [address]
      · rw [List.append_assoc]
        exact afterPlayerHost?_isSome isSite isHost _
      · obtain ⟨before, after, rfl, unnamed⟩ := query.split
        obtain ⟨freeBefore, freeAfter⟩ := List.forall_mem_append.mp free
        have later := (List.forall_mem_cons.mp freeAfter).2
        obtain ⟨front, mark, oneLine, isMark, same⟩ :=
          watch_marked page.oneLine freeBefore id after
        rw [same]
        exact videoId?_of_mark field eleven (asks_moreText after)
          (lastVideoMark?_rest field later unnamed (asks_moreText after) isMark oneLine)
      · exact playlistId?_of_query query free (asks_queryText ps)
          (page.append (isFront_of_mem (List.mem_singleton_self "/watch") (by decide)))
  | @path site place asked isSite isPlace query =>
      have free := query.free nofun ofPlaylist
      have before : IsFront (site.toList ++ place.toList) :=
        (isFront_of_mem isSite (by decide)).append (isFront_of_mem isPlace (by decide))
      refine playerEmbed?_eq ?_ ?_ ?_ present <;> rw [address]
      · obtain ⟨host, isHost, path, same⟩ := place_hosted isPlace
        rw [same]
        simpa using afterPlayerHost?_isSome isSite isHost _
      · obtain ⟨front, mark, isMark, same⟩ := place_marked isPlace
        have oneLine : '\n' ∉ site.toList ++ front := by
          intro inside
          refine before.oneLine ?_
          rw [same, ← List.append_assoc]
          exact List.mem_append_left _ inside
        refine videoId?_of_mark field eleven (asks_tail asked) ?_
        rw [same]
        simpa using lastVideoMark?_rest field free query.unnamed (asks_tail asked) isMark oneLine
      · exact playlistId?_of_query query free (asks_tail asked) (before.append field.isFront)

/-- A link with the video between two parameters that mean nothing here, after its playlist. -/
theorem sharedLink_embedded :
    IsLink "dQw4w9WgXcQ".toList (some "PL_x-1".toList)
        "https://m.youtube.com/watch?si=e-v&list=PL_x-1&v=dQw4w9WgXcQ&t=42s".toList ∧
      playerEmbed? "https://m.youtube.com/watch?si=e-v&list=PL_x-1&v=dQw4w9WgXcQ&t=42s" =
        some "https://www.youtube.com/embed/dQw4w9WgXcQ?list=PL_x-1" := by
  have query : Query [⟨"si".toList, "e-v".toList⟩, ⟨"list".toList, "PL_x-1".toList⟩,
      ⟨"v".toList, "dQw4w9WgXcQ".toList⟩, ⟨"t".toList, "42s".toList⟩]
      (some "dQw4w9WgXcQ".toList) (some "PL_x-1".toList) := by
    refine ⟨by decide, by decide, fun p member notVideo notList => ?_⟩
    simp only [List.mem_cons, List.not_mem_nil, or_false] at member
    rcases member with rfl | rfl | rfl | rfl
    · exact ⟨isField_of_checked (by decide), isField_of_checked (by decide)⟩
    · exact absurd rfl notList
    · exact absurd rfl notVideo
    · exact ⟨isField_of_checked (by decide), isField_of_checked (by decide)⟩
  have link : IsLink "dQw4w9WgXcQ".toList (some "PL_x-1".toList)
      "https://m.youtube.com/watch?si=e-v&list=PL_x-1&v=dQw4w9WgXcQ&t=42s".toList := by
    have isSite : "https://m." ∈ sites := by decide
    have isHost : "youtube.com" ∈ hosts := by decide
    exact .watch isSite isHost query
  have isId : ∀ w, w.all TagText.isTagChar = true → IsId w := fun w => List.all_eq_true.mp
  refine ⟨link, (player_link_embedded link (isId _ (by decide)) (by decide) ?_).trans (by decide)⟩
  rintro l ⟨⟩
  exact ⟨by decide, isId _ (by decide)⟩

end NoteMarkup.MediaUrl
