import NoteMarkup.Toml.Reader

/-!
The table that the statements of a document build. No entry is set twice. A value that is written
out as an array or an inline table stays as it is, and a table that a header or a dotted key has
made is not opened again.
-/

namespace NoteMarkup.Toml

/-- What is kept of a key besides its value. -/
inductive Mark where
  /-- The value was written out; nothing is added to it or below it. -/
  | fixed (key : Key)
  /-- The table has been made and takes no further header. -/
  | made (key : Key)
deriving Repr, DecidableEq

/-- Whether a key is, or is below, a value that was written out. -/
def isFixed (marks : List Mark) (key : Key) : Bool :=
  marks.any fun
    | .fixed k => k.isPrefixOf key
    | .made _ => false

/-- Whether a table has been made. -/
def isMade (marks : List Mark) (key : Key) : Bool := marks.contains (.made key)

/-- The marks of keys that are not at or below a key. -/
def forget (marks : List Mark) (key : Key) : List Mark :=
  marks.filter fun
    | .fixed k => !key.isPrefixOf k
    | .made k => !key.isPrefixOf k

/-- Changes the table that a key leads to; tables on the way are made if they are not there. With
`throughArrays` a key leads to the last table of an array of tables. -/
def changeAt (throughArrays : Bool) (change : Record → Except LoadFault Record) :
    Key → Record → Except LoadFault Record
  | [], r => change r
  | name :: names, r => do
    match Record.get? r (.str name) with
    | none => return r.set (.str name) (.map (← changeAt throughArrays change names []))
    | some (.map inner) =>
      return r.set (.str name) (.map (← changeAt throughArrays change names inner))
    | some (.list items) =>
      match items.getLast? with
      | some (.map inner) =>
        if !throughArrays then malformed "a value is set twice"
        else
          let inner ← changeAt throughArrays change names inner
          return r.set (.str name) (.list (items.dropLast ++ [.map inner]))
      | _ => malformed "a value is set twice"
    | some _ => malformed "a value is set twice"

/-- Sets an entry that is not there. -/
def setNew (name : String) (v : Value) (r : Record) : Except LoadFault Record :=
  if r.has (.str name) then malformed "a value is set twice" else .ok (r.set (.str name) v)

/-- Adds an empty table to the array with a name, which is made if it is not there. -/
def addTable (name : String) (r : Record) : Except LoadFault Record :=
  match Record.get? r (.str name) with
  | none => .ok (r.set (.str name) (.list [.map []]))
  | some (.list items) => .ok (r.set (.str name) (.list (items ++ [.map []])))
  | some _ => malformed "a value is set twice"

/-- The names before the last one, and the last one. -/
def splitLast (key : Key) : Key × String := (key.dropLast, key.getLast?.getD "")

/-- Whether a value is a table or an array. -/
def isCompound : Value → Bool
  | .map _ | .list _ => true
  | _ => false

/-- Adds an entry to an inline table, whose marks are `marks`. -/
def addInline (table : Record × List Mark) (key : Key) (v : Value) :
    Except LoadFault (Record × List Mark) := do
  if isFixed table.2 key then malformed "a value is set twice"
  else
    let (above, name) := splitLast key
    let r ← changeAt false (setNew name v) above table.1
    return (r, if isCompound v then .fixed key :: table.2 else table.2)

mutual

/-- The value of an expression. -/
def Expression.value : Expression → Except LoadFault Value
  | .scalar v => .ok v
  | .array items => do return .list (← itemValues items)
  | .inlineTable entries => do return .map (← inlineEntries ([], []) entries)

/-- The values of expressions. -/
def itemValues : List Expression → Except LoadFault (List Value)
  | [] => .ok []
  | e :: es => do
    let v ← e.value
    return v :: (← itemValues es)

/-- The inline table after the entries that are left. -/
def inlineEntries (table : Record × List Mark) :
    List (Key × Expression) → Except LoadFault Record
  | [] => .ok table.1
  | (k, e) :: es => do
    let v ← e.value
    inlineEntries (← addInline table k v) es

end

/-- A document that is being built: its table, its marks, the tables that dotted keys have made
since the last header, and the key of that header. -/
structure Document where
  table : Record
  marks : List Mark
  pending : List Key
  header : Key

/-- The document without statements. -/
def Document.empty : Document := ⟨[], [], [], []⟩

/-- The keys of the tables that a dotted key makes below the header. -/
def dottedTables (header key : Key) : List Key :=
  (List.range (key.length - 1)).map fun n => header ++ key.take (n + 1)

/-- The document after one more statement. -/
def Document.add (d : Document) (s : Statement) : Except LoadFault Document := do
  match s with
  | .entry key e =>
    let v ← e.value
    let (above, name) := splitLast key
    let tables := dottedTables d.header key
    if tables.any (isMade d.marks) then malformed "a table is opened again"
    else if isFixed d.marks (d.header ++ above) then malformed "a table is opened again"
    else
      let table ← changeAt true (setNew name v) (d.header ++ above) d.table
      let marks := if isCompound v then .fixed (d.header ++ key) :: d.marks else d.marks
      return { d with table := table, marks := marks, pending := d.pending ++ tables }
  | .table key =>
    let marks := d.marks ++ d.pending.map .made
    if isMade marks key || isFixed marks key then malformed "a table is opened again"
    else
      let table ← changeAt true .ok key d.table
      return ⟨table, .made key :: marks, [], key⟩
  | .nextTable key =>
    let marks := d.marks ++ d.pending.map .made
    if isFixed marks key then malformed "a table is opened again"
    else
      let (above, name) := splitLast key
      let table ← changeAt true (addTable name) above d.table
      return ⟨table, .made key :: forget marks key, [], key⟩

/-- The table that a text writes. -/
def load (s : List Char) : Except LoadFault Value := do
  let d ← (← read s).foldlM Document.add Document.empty
  return .map d.table

end NoteMarkup.Toml
