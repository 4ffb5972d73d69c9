import NoteMarkup.Proofs.ReferenceSyntax

/-! Replacing the references of a text. The scan parts a text into references and the gaps between
them. Every reference that stands in the text is found, but for the one inside an embedded reference,
and each is what its written form gives by itself. -/

namespace NoteMarkup.Reference

variable {s rest : List Char} {src : Source} {ps : List Piece}

/-- A reference in a text, with the text between its end and the next one. -/
structure Occurrence where
  reference : Reference
  source : List Char
  gap : List Char

/-- The text before the first reference. -/
def front : List Piece → List Char
  | .gap text :: ps => text ++ front ps
  | _ => []

def occurrences : List Piece → List Occurrence
  | [] => []
  | .gap _ :: ps => occurrences ps
  | .reference r source :: ps => ⟨r, source, front ps⟩ :: occurrences ps

/-- A text with what `f` gives for each reference in its place. -/
def put (f : Occurrence → List Char) (front : List Char) (found : List Occurrence) : List Char :=
  front ++ found.flatMap fun o => f o ++ o.gap

theorem flatMap_pieces (f : Reference → List Char → List Char) (ps : List Piece) :
    (ps.flatMap fun | .gap text => text | .reference r source => f r source) =
      put (fun o => f o.reference o.source) (front ps) (occurrences ps) := by
  induction ps with
  | nil => rfl
  | cons p ps ih =>
      rw [List.flatMap_cons, ih]
      cases p with
      | gap text => exact (List.append_assoc _ _ _).symm
      | reference r source => simp [put, front, occurrences]

theorem mem_occurrences {r : Reference} {source : List Char} (h : .reference r source ∈ ps) :
    ∃ gap, ⟨r, source, gap⟩ ∈ occurrences ps := by
  induction ps with
  | nil => cases h
  | cons p ps ih =>
      rcases List.mem_cons.mp h with rfl | later
      · exact ⟨front ps, List.mem_cons_self⟩
      · obtain ⟨gap, found⟩ := ih later
        cases p with
        | gap text => exact ⟨gap, found⟩
        | reference r' source' => exact ⟨gap, List.mem_cons_of_mem _ found⟩

theorem piece_of_mem {o : Occurrence} (h : o ∈ occurrences ps) :
    .reference o.reference o.source ∈ ps := by
  induction ps with
  | nil => cases h
  | cons p ps ih =>
      cases p with
      | gap text => exact List.mem_cons_of_mem _ (ih h)
      | reference r source =>
          rcases List.mem_cons.mp h with rfl | later
          · exact List.mem_cons_self
          · exact List.mem_cons_of_mem _ (ih later)

theorem parse?_ofList {r : Reference} :
    parse? (String.ofList s) = some r ↔ ∃ src : Source, src.WellFormed ∧ s = src.written ∧
      ofSource src = r := by
  rw [parse?_eq_some_iff, String.toList_ofList]

/-- What the scan finds is read in the same way by itself. -/
theorem occurrence_reads {o : Occurrence} (h : o ∈ occurrences (pieces s)) :
    parse? (String.ofList o.source) = some o.reference := by
  obtain ⟨reference, source, gap⟩ := o
  cases pieces_found s _ (piece_of_mem h) with
  | reference wellFormed => exact parse?_ofList.mpr ⟨_, wellFormed, rfl, rfl⟩

/-- No part of the text is a reference. -/
def Unreferenced (s : List Char) : Prop := ∀ part, part <:+: s → parse? (String.ofList part) = none

theorem unreferenced_nil : Unreferenced [] := by
  intro part inside
  rw [List.infix_nil.mp inside]
  rfl

/-- Where no reference starts, none is in the text unless one is in what follows. -/
theorem Unreferenced.cons {c : Char} {gap after : List Char} (h : Unreferenced gap)
    (none : split? (c :: (gap ++ after)) = none) : Unreferenced (c :: gap) := by
  intro part inside
  rcases List.infix_cons_iff.mp inside with start | later
  · rw [Option.eq_none_iff_forall_ne_some]
    intro r parsed
    obtain ⟨src, wellFormed, rfl, -⟩ := parse?_ofList.mp parsed
    obtain ⟨tail, same⟩ := start
    have found : split? (c :: (gap ++ after)) = some (src, tail ++ after) :=
      split?_eq_some_iff.mpr ⟨wellFormed, by rw [← List.cons_append, ← same, List.append_assoc]⟩
    rw [none] at found
    cases found
  · exact h part later

theorem put_source (s : List Char) :
    put Occurrence.source (front (pieces s)) (occurrences (pieces s)) = s := by
  rw [← flatMap_pieces fun _ source => source]
  exact (congrArg (pieces s).flatMap (funext fun p => by cases p <;> rfl)).trans (pieces_source s)

/-- The gaps hold no reference. The induction is on the scan: a gap grows at its front by a character
at which no reference starts. -/
theorem unreferenced_gaps (s : List Char) :
    ∀ gap ∈ front (pieces s) :: (occurrences (pieces s)).map (·.gap), Unreferenced gap := by
  induction s using pieces_induct with
  | nil =>
      rw [pieces]
      exact List.forall_mem_singleton.mpr unreferenced_nil
  | reference src rest wellFormed found ih =>
      rw [pieces_cons_of_split? found]
      exact List.forall_mem_cons.mpr ⟨unreferenced_nil, ih⟩
  | gap c cs none ih =>
      rw [pieces_cons_of_none none]
      obtain ⟨first, later⟩ := List.forall_mem_cons.mp ih
      refine List.forall_mem_cons.mpr ⟨?_, later⟩
      have text : cs = front (pieces cs) ++ _ := (put_source cs).symm
      rw [text] at none
      exact first.cons none

theorem no_mark_before_opening {closed before m : List Char} (h : '[' ∉ closed) :
    '[' :: closed ≠ before ++ '!' :: '[' :: m := by
  intro same
  cases before with
  | nil => cases same
  | cons d before =>
      have tails : closed = before ++ '!' :: '[' :: m := (List.cons.inj same).2
      exact h (tails ▸ List.mem_append_right _ (List.mem_cons_of_mem _ List.mem_cons_self))

/-- Inside a reference no embedded one starts. -/
theorem Source.WellFormed.no_embed_inside {first : Source} {before m after : List Char}
    (h : first.WellFormed) (same : first.written = before ++ m)
    (tails : m ++ rest = '!' :: '[' :: after) (later : before ≠ []) : m = [] := by
  have closed : '[' ∉ first.body ++ [']', ']'] := by
    intro member
    rcases List.mem_append.mp member with body | closing
    · exact (h.ne_bracket body).1 rfl
    · exact absurd closing (by decide)
  obtain ⟨d, before, rfl⟩ := List.exists_cons_of_ne_nil later
  match m, tails with
  | [], _ => rfl
  | [c], tails =>
      have last := first.getLast?_written
      rw [same, List.getLast?_concat] at last
      rw [Option.some.inj last] at tails
      cases tails
  | c :: e :: m, tails =>
      simp only [List.cons_append, List.cons.injEq] at tails
      rw [tails.1, tails.2.1] at same
      cases embedded : first.embedded with
      | false =>
          rw [Source.written_of_linked embedded] at same
          exact absurd (List.cons.inj same).2 (no_mark_before_opening closed)
      | true =>
          have shape : first.written = '!' :: '[' :: '[' :: (first.body ++ [']', ']']) := by
            simp [Source.written, embedded]
          rw [shape] at same
          have opening := (List.cons.inj same).2
          cases before with
          | nil => cases opening
          | cons e before => exact absurd (List.cons.inj opening).2 (no_mark_before_opening closed)

/-- The scan finds every embedded reference that stands in a text. -/
theorem mem_pieces_of_embed {before after : List Char} (h : src.WellFormed)
    (embedded : src.embedded = true) (same : s = before ++ (src.written ++ after)) :
    .reference (ofSource src) src.written ∈ pieces s := by
  have shape : src.written = '!' :: '[' :: '[' :: (src.body ++ [']', ']']) := by
    simp [Source.written, embedded]
  have here : split? (src.written ++ after) = some (src, after) :=
    split?_eq_some_iff.mpr ⟨h, rfl⟩
  induction s using pieces_induct generalizing before with
  | nil => simp [shape] at same
  | reference first rest firstFormed found ih =>
      rw [pieces_cons_of_split? found]
      rcases List.append_eq_append_iff.mp same with ⟨m, rfl, tails⟩ | ⟨m, inFirst, tails⟩
      · exact List.mem_cons_of_mem _ (ih tails)
      · by_cases start : before = []
        · rw [same, start, List.nil_append, here] at found
          cases found
          exact List.mem_cons_self
        · rw [shape] at tails
          have ends := firstFormed.no_embed_inside inFirst tails.symm start
          rw [ends, List.nil_append, ← shape] at tails
          have later : rest = [] ++ (src.written ++ after) := tails.symm
          exact List.mem_cons_of_mem _ (ih later)
  | gap c cs none ih =>
      rw [pieces_cons_of_none none]
      cases before with
      | nil =>
          rw [same, List.nil_append, here] at none
          cases none
      | cons d before => exact List.mem_cons_of_mem _ (ih (List.cons.inj same).2)

/-- Every reference that stands in a text is found, with the mark in front of it if there is one. -/
theorem found_of_infix {part : List Char} {r : Reference} (inside : part <:+: s)
    (parsed : parse? (String.ofList part) = some r) :
    ∃ o ∈ occurrences (pieces s), o.source = part ∨ o.source = '!' :: part := by
  obtain ⟨src, wellFormed, rfl, -⟩ := parse?_ofList.mp parsed
  obtain ⟨before, after, same⟩ := inside
  rw [List.append_assoc] at same
  cases embedded : src.embedded with
  | true =>
      obtain ⟨gap, found⟩ := mem_occurrences (mem_pieces_of_embed wellFormed embedded same.symm)
      exact ⟨_, found, .inl rfl⟩
  | false =>
      by_cases marked : before.getLast? = some '!'
      · obtain ⟨front, rfl⟩ := List.getLast?_eq_some_iff.mp marked
        let embed : Source := { src with embedded := true }
        have written : embed.written = '!' :: src.written := by
          rw [Source.written_of_linked embedded]
          rfl
        have text : s = front ++ (embed.written ++ after) := by
          rw [← same, written, List.append_assoc]
          rfl
        have embedFormed : embed.WellFormed := ⟨wellFormed.target, wellFormed.anchor, wellFormed.label⟩
        obtain ⟨gap, found⟩ := mem_occurrences (mem_pieces_of_embed embedFormed rfl text)
        exact ⟨_, found, .inr written⟩
      · have link : LinkIn s src := ⟨wellFormed, embedded, before, after, same.symm, marked⟩
        obtain ⟨gap, found⟩ := mem_occurrences (mem_pieces_of_linkIn link)
        exact ⟨_, found, .inl rfl⟩

/-- The text is parted into gaps and references: no gap holds a reference, each reference is read as it
is by itself, and there is no reference in the text that is not found. -/
structure Parted (s front : List Char) (found : List Occurrence) : Prop where
  text : s = put Occurrence.source front found
  read : ∀ o ∈ found, parse? (String.ofList o.source) = some o.reference
  free : ∀ gap ∈ front :: found.map (·.gap), Unreferenced gap
  complete : ∀ part, part <:+: s → (parse? (String.ofList part)).isSome = true →
    ∃ o ∈ found, o.source = part ∨ o.source = '!' :: part

theorem parted_pieces (s : List Char) : Parted s (front (pieces s)) (occurrences (pieces s)) where
  text := (put_source s).symm
  read _ := occurrence_reads
  free := unreferenced_gaps s
  complete _ inside isReference :=
    found_of_infix inside (Option.isSome_iff_exists.mp isReference).choose_spec

theorem replace_eq (f : Reference → String → String) (text : String) :
    replace f text = String.ofList (put (fun o => (f o.reference (String.ofList o.source)).toList)
      (front (pieces text.toList)) (occurrences (pieces text.toList))) := by
  rw [← flatMap_pieces fun r source => (f r (String.ofList source)).toList, replace, ← String.toList_inj,
    String.toList_ofList]
  induction pieces text.toList with
  | nil => rfl
  | cons p ps ih =>
      rw [List.map_cons, String.join_cons, String.toList_append, ih, List.flatMap_cons]
      cases p with
      | gap cs => rw [String.toList_ofList]
      | reference r source => rfl

/-- Replacing references changes a text exactly at its references. -/
theorem replaced_at_references (text : String) :
    ∃ front found, Parted text.toList front found ∧
      (∀ f, replace f text =
        String.ofList (put (fun o => (f o.reference (String.ofList o.source)).toList) front found)) ∧
      replace (fun _ source => source) text = text := by
  refine ⟨_, _, parted_pieces text.toList, fun f => replace_eq f text, ?_⟩
  rw [replace_eq]
  simp only [String.toList_ofList]
  exact (congrArg String.ofList (put_source text.toList)).trans String.ofList_toList

end NoteMarkup.Reference
