import NoteMarkup.Proofs.Attributes
import NoteMarkup.Proofs.Tree
import NoteMarkup.Stage.Blocks

/-! The id of a block, and the id that a block holds for the block before it. -/

namespace NoteMarkup.Stage.Blocks

open Node

variable {n m : Node} {id a b : String} {as : Record}

/-- The id of a block. -/
def idOf? (n : Node) : Option Value := n.attrs.toOption.bind (·.get? idKey)

/-- The block with an id. -/
def named (id : String) (n : Node) : Node := (n.withAttrs [(idKey, .str id)]).toOption.getD n

/-- The block without its id. -/
def nameless (n : Node) : Node :=
  match n.attrs with
  | .error _ => n
  | .ok as =>
    if (as.get? idKey).isSome then n.withInfo (n.info.set attrsKey (.map (as.erase idKey))) else n

/-- The block without the id that it holds for the block before it. -/
def plain (n : Node) : Node := n.withInfo (n.info.erase markerKey)

/-- The id that a block holds for the block before it. -/
def marker? (n : Node) : Option String :=
  match n.info.get? markerKey with
  | some (.str id) => some id
  | _ => none

/-- The attributes are a map. -/
def Styled (n : Node) : Prop := ∃ as, HasAttrs n.info as

theorem idOf?_eq (h : HasAttrs n.info as) : idOf? n = as.get? idKey := by
  unfold idOf? attrs
  rw [h.attrsOf]
  rfl

theorem named_eq (h : HasAttrs n.info as) :
    named id n = n.withInfo (n.info.set attrsKey (.map (as.set idKey (.str id)))) := by
  unfold named
  rw [withAttrs_eq_ok h]
  rfl

theorem hasAttrs_named (h : HasAttrs n.info as) :
    HasAttrs (named id n).info (as.set idKey (.str id)) := by
  rw [named_eq h, info_withInfo]
  exact .set_self _ _

theorem Styled.named (h : Styled n) (id : String) : Styled (named id n) := by
  obtain ⟨as, has⟩ := h
  exact ⟨_, hasAttrs_named has⟩

theorem idOf?_named (h : Styled n) (id : String) : idOf? (named id n) = some (.str id) := by
  obtain ⟨as, has⟩ := h
  rw [idOf?_eq (hasAttrs_named has)]
  exact Record.get?_set_self as "id" (.str id)

theorem set_set_attrs (info : Record) (v w : Value) :
    (info.set attrsKey v).set attrsKey w = info.set attrsKey w :=
  Entries.insert_insert_self info "render_attrs" v w

/-- The last name of a block replaces the ones before it. -/
theorem named_named (h : Styled n) (a b : String) : named b (named a n) = named b n := by
  obtain ⟨as, has⟩ := h
  rw [named_eq (hasAttrs_named has), named_eq has, named_eq has, withInfo_withInfo, info_withInfo,
    set_set_attrs]
  exact congrArg (fun r => n.withInfo (n.info.set attrsKey (.map r)))
    (Entries.insert_insert_self as "id" (.str a) (.str b))

theorem nameless_eq (h : HasAttrs n.info as) : nameless n =
    if (as.get? idKey).isSome then n.withInfo (n.info.set attrsKey (.map (as.erase idKey))) else n := by
  unfold nameless attrs
  rw [h.attrsOf]

theorem nameless_named (h : HasAttrs n.info as) :
    nameless (named id n) = n.withInfo (n.info.set attrsKey (.map (as.erase idKey))) := by
  have present : ((as.set idKey (.str id)).get? idKey).isSome = true := by
    rw [idKey, Record.get?_set_self]
    rfl
  rw [nameless_eq (hasAttrs_named h), if_pos present, named_eq h, withInfo_withInfo, info_withInfo,
    set_set_attrs]
  exact congrArg (fun r => n.withInfo (n.info.set attrsKey (.map r)))
    (Entries.erase_insert_self as "id" (.str id))

theorem idOf?_nameless (h : Styled n) : idOf? (nameless n) = none := by
  obtain ⟨as, has⟩ := h
  rw [nameless_eq has]
  split
  · have erased : HasAttrs (n.withInfo (n.info.set attrsKey (.map (as.erase idKey)))).info
        (as.erase idKey) := by
      rw [info_withInfo]
      exact .set_self _ _
    rw [idOf?_eq erased]
    exact Record.get?_erase_self as "id"
  · next absent =>
      rw [idOf?_eq has]
      simpa using absent

theorem nameless_of_none (h : Styled n) (none : idOf? n = none) : nameless n = n := by
  obtain ⟨as, has⟩ := h
  rw [idOf?_eq has] at none
  rw [nameless_eq has, none]
  rfl

theorem nameless_of_some {v : Value} (h : HasAttrs n.info as) (some : idOf? n = some v) :
    nameless n = n.withInfo (n.info.set attrsKey (.map (as.erase idKey))) := by
  rw [idOf?_eq h] at some
  rw [nameless_eq h, some]
  rfl

@[simp] theorem kind_named (id : String) (n : Node) : (named id n).kind = n.kind := by
  unfold named withAttrs
  cases addAttrs [(idKey, .str id)] n.info with
  | error e => rfl
  | ok info => exact kind_withInfo n info

@[simp] theorem children_named (id : String) (n : Node) : (named id n).children = n.children := by
  unfold named withAttrs
  cases addAttrs [(idKey, .str id)] n.info with
  | error e => rfl
  | ok info => exact children_withInfo n info

@[simp] theorem children_nameless (n : Node) : (nameless n).children = n.children := by
  unfold nameless
  split
  · rfl
  · split
    · exact children_withInfo _ _
    · rfl

@[simp] theorem kind_plain (n : Node) : (plain n).kind = n.kind := kind_withInfo _ _

@[simp] theorem children_plain (n : Node) : (plain n).children = n.children := children_withInfo _ _

theorem hasAttrs_plain : HasAttrs (plain n).info as ↔ HasAttrs n.info as := by
  unfold plain
  rw [info_withInfo]
  exact hasAttrs_erase_of_ne (by decide)

theorem Styled.plain (h : Styled n) : Styled (plain n) := by
  obtain ⟨as, has⟩ := h
  exact ⟨as, hasAttrs_plain.mpr has⟩

theorem idOf?_plain (h : Styled n) : idOf? (plain n) = idOf? n := by
  obtain ⟨as, has⟩ := h
  rw [idOf?_eq has, idOf?_eq (hasAttrs_plain.mpr has)]

theorem plain_eq_self (h : n.info.get? markerKey = none) : plain n = n := by
  have same : n.info.erase markerKey = n.info := Entries.erase_eq_self h
  unfold plain
  rw [same, withInfo_info]

theorem marker_named (h : Styled n) :
    (named id n).info.get? markerKey = n.info.get? markerKey := by
  obtain ⟨as, has⟩ := h
  rw [named_eq has, info_withInfo]
  exact Record.get?_set_of_ne (by decide)

/-- A node whose attributes are a map, and that holds no id and no marker but texts. -/
structure Ready (n : Node) : Prop where
  styled : Styled n
  id : ∀ v, idOf? n = some v → ∃ id, v = .str id
  marker : n.info.get? markerKey = none ∨ ∃ id, n.info.get? markerKey = some (.str id)

/-- A node as it is before the stage: its attributes are a map, its id is a text, and it holds no
marker. -/
structure Unmarked (n : Node) : Prop where
  styled : Styled n
  id : ∀ v, idOf? n = some v → ∃ id, v = .str id
  marker : n.info.get? markerKey = none

/-- The same, without an id. -/
structure Unnamed (n : Node) : Prop where
  styled : Styled n
  id : idOf? n = none
  marker : n.info.get? markerKey = none

theorem Unnamed.unmarked (h : Unnamed n) : Unmarked n :=
  ⟨h.styled, by rw [h.id]; nofun, h.marker⟩

theorem Unmarked.ready (h : Unmarked n) : Ready n := ⟨h.styled, h.id, .inl h.marker⟩

theorem idOf?_congr (h : m.info = n.info) : idOf? m = idOf? n := by
  unfold idOf? attrs
  rw [h]

theorem hasAttrs_marked (info : m.info = n.info.set markerKey (.str id)) :
    HasAttrs m.info as ↔ HasAttrs n.info as := by
  rw [info]
  exact hasAttrs_set_of_ne (by decide) _

theorem idOf?_marked (h : Styled n) (info : m.info = n.info.set markerKey (.str id)) :
    idOf? m = idOf? n := by
  obtain ⟨as, has⟩ := h
  rw [idOf?_eq has, idOf?_eq ((hasAttrs_marked info).mpr has)]

/-- A block that holds an id for the block before it. -/
theorem Unmarked.marked (h : Unmarked n) (info : m.info = n.info.set markerKey (.str id)) :
    Ready m where
  styled := by
    obtain ⟨as, has⟩ := h.styled
    exact ⟨as, (hasAttrs_marked info).mpr has⟩
  id := by
    rw [idOf?_marked h.styled info]
    exact h.id
  marker := by
    refine .inr ⟨id, ?_⟩
    rw [info]
    exact Record.get?_set_self n.info "block_reference" (.str id)

theorem Styled.congr (h : Styled n) (same : m.info = n.info) : Styled m := by
  obtain ⟨as, has⟩ := h
  exact ⟨as, same ▸ has⟩

theorem Unmarked.congr (h : Unmarked n) (same : m.info = n.info) : Unmarked m :=
  ⟨h.styled.congr same, idOf?_congr same ▸ h.id, same ▸ h.marker⟩

theorem Unnamed.congr (h : Unnamed n) (same : m.info = n.info) : Unnamed m :=
  ⟨h.styled.congr same, idOf?_congr same ▸ h.id, same ▸ h.marker⟩

theorem Ready.named (h : Ready n) (id : String) : Ready (named id n) where
  styled := h.styled.named id
  id v hv := by
    rw [idOf?_named h.styled] at hv
    exact ⟨id, (Option.some.inj hv).symm⟩
  marker := by
    rw [marker_named h.styled]
    exact h.marker

theorem Ready.plain (h : Ready n) : Ready (plain n) where
  styled := h.styled.plain
  id := by
    rw [idOf?_plain h.styled]
    exact h.id
  marker := by
    left
    rw [Blocks.plain, info_withInfo]
    exact Record.get?_erase_self n.info "block_reference"

theorem marker?_eq_none (h : n.info.get? markerKey = none) : marker? n = none := by
  unfold marker?
  rw [h]

theorem marker?_eq_some (h : n.info.get? markerKey = some (.str id)) : marker? n = some id := by
  unfold marker?
  rw [h]

theorem unnamed_of_bare (h : n.info.isEmpty = true) : Unnamed n := by
  have bare : n.info = [] := List.isEmpty_iff.mp h
  have attrs : HasAttrs n.info [] := .of_none (by rw [bare]; rfl)
  exact ⟨⟨[], attrs⟩, (idOf?_eq attrs).trans rfl, by rw [bare]; rfl⟩

end NoteMarkup.Stage.Blocks
