import NoteMarkup.Fault

/-!
Render attributes. A node keeps the attributes of its element under one key of its information, as
a map. A value of another shape that lists pairs is read as a map too; anything else is a fault.
-/

namespace NoteMarkup

namespace Value

/-- The items that a value lists: the entries of a list or a set, both parts of a pair, the keys of
a map, the characters of a text, the numbers of octets. -/
def items? : Value → Option (List Value)
  | .list xs | .set xs => some xs
  | .pair a b => some [a, b]
  | .map es => some (es.map (·.1))
  | .str s => some (s.toList.map fun c => .str (String.singleton c))
  | .bytes os => some (os.map fun o => .int o.toNat)
  | _ => none

/-- One entry of a map that is given as a list of pairs. -/
def listedEntry (index : Nat) (v : Value) : Except Fault (Value × Value) :=
  match v.items? with
  | none => .error (.wrongType "a pair" v.typeName)
  | some [k, x] => if k.isKey then .ok (k, x) else .error (.wrongType "a key" k.typeName)
  | some xs => .error (.notPair index xs.length)

/-- The map that a value gives: itself, or the pairs that it lists. -/
def toRecord (v : Value) : Except Fault Record :=
  match v with
  | .map es => .ok es
  | v =>
    match v.items? with
    | none => .error (.wrongType "a map" v.typeName)
    | some xs => do
      return Record.ofList (← xs.zipIdx.mapM fun x => listedEntry x.2 x.1)

end Value

namespace Node

/-- The key of the render attributes. -/
def attrsKey : Value := .str "render_attrs"

/-- The key of the element name. -/
def tagKey : Value := .str "html_tag"

/-- The key that marks raw markup made by a stage. -/
def generatedKey : Value := .str "generated"

/-- The render attributes that information holds, none if they are not set. -/
def attrsOf (info : Record) : Except Fault Record :=
  match info.get? attrsKey with
  | none => .ok []
  | some v => v.toRecord

/-- The render attributes of a node. -/
def attrs (n : Node) : Except Fault Record := attrsOf n.info

/-- The information with more render attributes. What is there has to be a map. -/
def addAttrs (attrs info : Record) : Except Fault Record :=
  match info.get? attrsKey with
  | none => .ok (info.set attrsKey (.map (Record.merge [] attrs)))
  | some (.map old) => .ok (info.set attrsKey (.map (Record.merge old attrs)))
  | some v => .error (.wrongType "a map" v.typeName)

/-- The node with more render attributes. -/
def withAttrs (attrs : Record) (n : Node) : Except Fault Node := do
  return n.withInfo (← addAttrs attrs n.info)

/-- Whether raw markup was made by a stage. -/
def isGenerated (info : Record) : Bool := ((info.get? generatedKey).getD .null).truthy

/-- Raw inline markup made by a stage. -/
def generatedInline (content : String) : Node :=
  .leaf (.htmlInline content) [(generatedKey, .bool true)]

/-- A raw block made by a stage. -/
def generatedBlock (content : String) : Node :=
  .leaf (.htmlBlock content) [(generatedKey, .bool true)]

end Node

end NoteMarkup
