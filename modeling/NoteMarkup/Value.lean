import NoteMarkup.Decimal.Text
import NoteMarkup.Moment
import NoteMarkup.Text.Hex
import NoteMarkup.Text.Printable

/-!
Dynamic values. Front matter, configuration files and the metadata of tree nodes hold values of
many kinds, in maps that remember the order in which their keys were first set.

A key is a scalar. Two keys are the same when they are equal as numbers, as texts or as points of
time: `1`, `1.0` and true name one entry.
-/

namespace NoteMarkup

/-- A dynamic value. A float is kept as the shortest decimal text that reads back as it; a date and
a time as their written form. A record has a kind and named fields. -/
inductive Value where
  | null
  | bool (b : Bool)
  | int (n : Int)
  | float (text : String)
  | str (s : String)
  | bytes (octets : List UInt8)
  | date (text : String)
  | dateTime (text : String)
  | time (text : String)
  | list (items : List Value)
  /-- An item of a list of pairs. -/
  | pair (first second : Value)
  | set (items : List Value)
  | map (entries : List (Value × Value))
  | record (kind : String) (fields : List (Value × Value))
  /-- The list or the map that holds this value. -/
  | enclosing (isMap : Bool)
deriving Inhabited, Repr

/-- A map with its entries in the order in which the keys were first set. -/
abbrev Record := List (Value × Value)

namespace Value

/-- The name of a value's type, as messages give it. -/
def typeName : Value → String
  | .null => "NoneType"
  | .bool _ => "bool"
  | .int _ => "int"
  | .float _ => "float"
  | .str _ => "str"
  | .bytes _ => "bytes"
  | .date _ => "date"
  | .dateTime _ => "datetime"
  | .time _ => "time"
  | .list _ => "list"
  | .pair _ _ => "tuple"
  | .set _ => "set"
  | .map _ => "dict"
  | .record kind _ => kind
  | .enclosing isMap => if isMap then "dict" else "list"

/-- Whether a shortest float text denotes zero. -/
def floatIsZero (text : String) : Bool := text == "0.0" || text == "-0.0"

/-- The integer that a float text denotes, if it denotes one. -/
def floatAsInt? (text : String) : Option Int :=
  (Decimal.readFloat? text.toList).bind Decimal.floatInt?

/-- Empty, zero and absent values are false; all others are true. -/
def truthy : Value → Bool
  | .null => false
  | .bool b => b
  | .int n => n != 0
  | .float t => !floatIsZero t
  | .str s => !s.isEmpty
  | .bytes o => !o.isEmpty
  | .date _ | .dateTime _ | .time _ | .pair _ _ => true
  | .list xs => !xs.isEmpty
  | .set xs => !xs.isEmpty
  | .map es => !es.isEmpty
  | .record _ _ | .enclosing _ => true

/-- The integer that a value equals when it is compared as a number. -/
def asInt? : Value → Option Int
  | .bool b => some (if b then 1 else 0)
  | .int n => some n
  | .float t => floatAsInt? t
  | _ => none

/-- Whether two scalars name the same entry of a map. -/
def sameKey (a b : Value) : Bool :=
  match a.asInt?, b.asInt? with
  | some m, some n => m == n
  | some _, none | none, some _ => false
  | none, none =>
    match a, b with
    | .null, .null => true
    | .float s, .float t => s == t
    | .str s, .str t => s == t
    | .bytes s, .bytes t => s == t
    | .date s, .date t => s == t
    | .dateTime s, .dateTime t => Moment.isSame s t
    | .time s, .time t => s == t
    | _, _ => false

/-- Only scalars can be the key of a map. -/
def isKey : Value → Bool
  | .list _ | .pair _ _ | .set _ | .map _ | .record _ _ | .enclosing _ => false
  | _ => true

/-- One character between quotation marks `q`. -/
def quotedChar (q c : Char) : List Char :=
  if c == '\\' then ['\\', '\\']
  else if c == q then ['\\', q]
  else if c == '\n' then ['\\', 'n']
  else if c == '\r' then ['\\', 'r']
  else if c == '\t' then ['\\', 't']
  else if Text.isPrintable c then [c]
  else if c.toNat < 256 then '\\' :: 'x' :: Text.hexFixed 2 c.toNat
  else if c.toNat < 65536 then '\\' :: 'u' :: Text.hexFixed 4 c.toNat
  else '\\' :: 'U' :: Text.hexFixed 8 c.toNat

/-- A text between apostrophes, or between double quotes if it holds an apostrophe and no double
quote. -/
def quoted (s : String) : String :=
  let q := if s.contains '\'' && !s.contains '"' then '"' else '\''
  String.ofList (q :: s.toList.flatMap (quotedChar q) ++ [q])

/-- Octets between apostrophes after `b`. -/
def quotedBytes (octets : List UInt8) : String :=
  let plain := octets.map fun o => Char.ofNat o.toNat
  let q := if plain.contains '\'' && !plain.contains '"' then '"' else '\''
  let one (c : Char) : List Char :=
    if c == '\\' then ['\\', '\\']
    else if c == q then ['\\', q]
    else if c == '\n' then ['\\', 'n']
    else if c == '\r' then ['\\', 'r']
    else if c == '\t' then ['\\', 't']
    else if 32 ≤ c.toNat && c.toNat < 127 then [c]
    else '\\' :: 'x' :: Text.hexFixed 2 c.toNat
  String.ofList ('b' :: q :: plain.flatMap one ++ [q])

mutual

/-- The text of a value inside a list or a map: texts are quoted there, and dates and times are
shown as calls. -/
def nestedText : Value → String
  | .null => "None"
  | .bool b => if b then "True" else "False"
  | .int n => toString n
  | .float t => t
  | .str s => quoted s
  | .bytes o => quotedBytes o
  | .date t => Moment.dateCall t
  | .dateTime t => Moment.dateTimeCall t
  | .time t => Moment.timeCall t
  | .list xs => "[" ++ ", ".intercalate (nestedTexts xs) ++ "]"
  | .pair a b => "(" ++ nestedText a ++ ", " ++ nestedText b ++ ")"
  | .set xs => if xs.isEmpty then "set()" else "\x7b" ++ ", ".intercalate (nestedTexts xs) ++ "\x7d"
  | .map es => "\x7b" ++ ", ".intercalate (entryTexts es) ++ "\x7d"
  | .record kind fs => kind ++ "(" ++ ", ".intercalate (fieldTexts fs) ++ ")"
  | .enclosing isMap => if isMap then "\x7b...\x7d" else "[...]"

/-- The texts of the items of a list. -/
def nestedTexts : List Value → List String
  | [] => []
  | v :: vs => nestedText v :: nestedTexts vs

/-- The texts of the entries of a map. -/
def entryTexts : List (Value × Value) → List String
  | [] => []
  | (k, v) :: es => (nestedText k ++ ": " ++ nestedText v) :: entryTexts es

/-- The texts of the fields of a record. -/
def fieldTexts : List (Value × Value) → List String
  | [] => []
  | (k, v) :: fs =>
    ((match k with | .str name => name | k => nestedText k) ++ "=" ++ nestedText v) :: fieldTexts fs

end

/-- The text of a value as it is shown: a text stands for itself, and so does a date or a time. -/
def text : Value → String
  | .str s => s
  | .date t | .dateTime t | .time t => t
  | v => nestedText v

end Value

namespace Entries

variable {α : Type}

/-- What is set for a key. -/
def get? (es : List (Value × α)) (key : Value) : Option α :=
  match es with
  | [] => none
  | (k, x) :: es => if k.sameKey key then some x else get? es key

/-- Sets a key: a present one keeps its place, a new one comes last. -/
def insert (es : List (Value × α)) (key : Value) (x : α) : List (Value × α) :=
  match es with
  | [] => [(key, x)]
  | (k, y) :: es => if k.sameKey key then (k, x) :: es else (k, y) :: insert es key x

/-- Removes a key. -/
def erase (es : List (Value × α)) (key : Value) : List (Value × α) :=
  es.filter fun e => !e.1.sameKey key

end Entries

namespace Record

/-- The value set for a key. -/
def get? (r : Record) (key : Value) : Option Value := Entries.get? r key

/-- Whether a key is set. -/
def has (r : Record) (key : Value) : Bool := (get? r key).isSome

/-- Sets a key: a present one keeps its place, a new one comes last. -/
def set (r : Record) (key value : Value) : Record := Entries.insert r key value

/-- Removes a key. -/
def erase (r : Record) (key : Value) : Record := Entries.erase r key

/-- Sets every entry of `s`, in order. -/
def merge (r s : Record) : Record := s.foldl (fun acc e => set acc e.1 e.2) r

/-- The map that sets the entries in order. -/
def ofList (es : List (Value × Value)) : Record := merge [] es

end Record

end NoteMarkup
