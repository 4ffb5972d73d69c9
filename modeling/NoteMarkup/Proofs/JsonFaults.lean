import NoteMarkup.Json.Printer
import NoteMarkup.Options

/-! Which values have a JSON text: those whose keys can all be written, inside lists, pairs and maps, and
in which no collection holds itself. A value that the format does not have is printed as a text, whatever
it holds. Of several faults the first one in the order of the text counts. -/

namespace NoteMarkup.Json

/-- The fault of a key that cannot be written. -/
def keyFlaw? : Value → Option Fault
  | .str _ | .float _ | .bool _ | .null | .int _ => none
  | k => some (.wrongType "key" k.typeName)

mutual

/-- The first fault that keeps a value from being written. -/
def flaw? : Value → Option Fault
  | .list items => flawIn? items
  | .pair a b => (flaw? a).or (flaw? b)
  | .map entries => flawAmong? entries
  | .enclosing _ => some .circular
  | _ => none

/-- The first fault in some values. -/
def flawIn? : List Value → Option Fault
  | [] => none
  | v :: vs => (flaw? v).or (flawIn? vs)

/-- The first fault in some entries. -/
def flawAmong? : List (Value × Value) → Option Fault
  | [] => none
  | (k, v) :: es => (keyFlaw? k).or ((flaw? v).or (flawAmong? es))

end

/-- A text is given just if there is no fault, else the fault. -/
def Told {α : Type} (flaw : Option Fault) (r : Except Fault α) : Prop :=
  match flaw with
  | some f => r = .error f
  | none => ∃ t, r = .ok t

theorem keyText_told (k : Value) : Told (keyFlaw? k) (keyText k) := by
  cases k <;> first | exact ⟨_, rfl⟩ | rfl

variable {α β : Type} {a b : Option Fault} {x : Except Fault α}

theorem Told.bind (h : Told a x) {k : α → Except Fault β} (later : ∀ t, Told b (k t)) :
    Told (a.or b) (x >>= k) := by
  cases a with
  | some f =>
      obtain rfl : x = .error f := h
      rfl
  | none =>
      obtain ⟨t, rfl⟩ := h
      exact later t

theorem Told.map (h : Told a x) (g : α → β) : Told a (x >>= fun t => pure (g t)) := by
  have done := h.bind (b := none) (fun t => ⟨g t, rfl⟩)
  rwa [Option.or_none] at done

mutual

theorem printed_told (depth : Nat) (v : Value) : Told (flaw? v) (printed depth v) := by
  cases v with
  | list items => exact (printedItems_told (depth + 1) items).map _
  | pair a b => exact (printed_told (depth + 1) a).bind fun _ => (printed_told (depth + 1) b).map _
  | map entries => exact (printedEntries_told (depth + 1) entries).map _
  | enclosing isMap => rfl
  | _ => exact ⟨_, rfl⟩

theorem printedItems_told (depth : Nat) (vs : List Value) :
    Told (flawIn? vs) (printedItems depth vs) := by
  cases vs with
  | nil => exact ⟨[], rfl⟩
  | cons v vs => exact (printed_told depth v).bind fun _ => (printedItems_told depth vs).map _

theorem printedEntries_told (depth : Nat) (es : List (Value × Value)) :
    Told (flawAmong? es) (printedEntries depth es) := by
  cases es with
  | nil => exact ⟨[], rfl⟩
  | cons e es =>
      obtain ⟨k, v⟩ := e
      exact (keyText_told k).bind fun key => (printed_told depth v).bind fun t =>
        (printedEntries_told depth es).map fun rest => (quoted key ++ ": " ++ t) :: rest

end

end NoteMarkup.Json
