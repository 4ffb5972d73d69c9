import NoteMarkup.Node.Attributes
import NoteMarkup.Proofs.Record
import NoteMarkup.Proofs.Run

/-! The render attributes of a node, as long as they are a map. -/

namespace NoteMarkup.Node

variable {info as bs new : Record}

/-- The information sets `as` as render attributes, as a map, or sets none and `as` is empty. -/
def HasAttrs (info as : Record) : Prop :=
  info.get? attrsKey = none ∧ as = [] ∨ info.get? attrsKey = some (.map as)

namespace HasAttrs

theorem of_none (h : info.get? attrsKey = none) : HasAttrs info [] := .inl ⟨h, rfl⟩

theorem attrsOf (h : HasAttrs info as) : attrsOf info = .ok as := by
  unfold Node.attrsOf
  rcases h with ⟨h, rfl⟩ | h
  · rw [h]
  · rw [h]; rfl

theorem unique (h : HasAttrs info as) (h' : HasAttrs info bs) : as = bs :=
  Except.ok.inj (h.attrsOf.symm.trans h'.attrsOf)

theorem addAttrs (h : HasAttrs info as) :
    addAttrs new info = .ok (info.set attrsKey (.map (as.merge new))) := by
  unfold Node.addAttrs
  rcases h with ⟨h, rfl⟩ | h <;> rw [h]

theorem set_self (info as : Record) : HasAttrs (info.set attrsKey (.map as)) as :=
  .inr (Record.get?_set_self info "render_attrs" (.map as))

end HasAttrs

theorem hasAttrs_set_of_ne {k : String} (hk : k ≠ "render_attrs") (v : Value) :
    HasAttrs (info.set (.str k) v) as ↔ HasAttrs info as := by
  unfold HasAttrs attrsKey
  rw [Record.get?_set_of_ne hk]

theorem hasAttrs_erase_of_ne {k : String} (hk : k ≠ "render_attrs") :
    HasAttrs (info.erase (.str k)) as ↔ HasAttrs info as := by
  unfold HasAttrs attrsKey
  rw [Record.get?_erase_of_ne hk]

/-- Attributes that are no map cannot be added to. -/
theorem addAttrs_error (new : Record) (h : ¬ ∃ as, HasAttrs info as) :
    ∃ e, addAttrs new info = .error e := by
  unfold addAttrs
  split
  · next none => exact (h ⟨[], .of_none none⟩).elim
  · next old heq => exact (h ⟨old, .inr heq⟩).elim
  · exact ⟨_, rfl⟩

/-- The node with render attributes on top of the ones that it has. -/
def styled (n : Node) (as new : Record) : Node :=
  n.withInfo (n.info.set attrsKey (.map (as.merge new)))

theorem withAttrs_eq_ok {n : Node} (h : HasAttrs n.info as) :
    n.withAttrs new = .ok (n.styled as new) := by
  rw [withAttrs, h.addAttrs]
  rfl

theorem withAttrs_error {n : Node} (new : Record) (h : ¬ ∃ as, HasAttrs n.info as) :
    ∃ e, n.withAttrs new = .error e := by
  obtain ⟨e, he⟩ := addAttrs_error new h
  exact ⟨e, by rw [withAttrs, he]; rfl⟩

theorem withAttrs_yields {n : Node} {r : Run} {stuck : Prop}
    (unstyled : (¬ ∃ as, HasAttrs n.info as) → stuck) :
    (StageM.ofExcept (n.withAttrs new)).Yields r
      (fun m s => s = r ∧ ∃ as, HasAttrs n.info as ∧ m = n.styled as new) stuck := by
  by_cases h : ∃ as, HasAttrs n.info as
  · obtain ⟨as, has⟩ := h
    rw [withAttrs_eq_ok has]
    exact .pure ⟨rfl, as, has, rfl⟩
  · obtain ⟨e, he⟩ := withAttrs_error new h
    rw [he]
    exact .throw (unstyled h)

/-- Render attributes, if the information holds any, are a map, and their classes are a list. -/
def Classed (info : Record) : Prop :=
  ∃ as, HasAttrs info as ∧ ∀ v, as.get? (.str "class") = some v → ∃ items, v = .list items

theorem Classed.attrs (h : Classed info) : ∃ as, HasAttrs info as := h.imp fun _ => And.left

def isList : Value → Bool
  | .list _ => true
  | _ => false

theorem isList_iff {v : Value} : isList v = true ↔ ∃ items, v = .list items := by
  cases v <;> simp [isList]

def listsClasses : Value → Bool
  | .map as => (Record.get? as (.str "class")).all isList
  | _ => false

theorem classed_iff : Classed info ↔ (info.get? attrsKey).all listsClasses = true := by
  unfold Classed HasAttrs
  cases info.get? attrsKey with
  | none => simp [Record.get?, Entries.get?]
  | some v => cases v <;> simp [listsClasses, isList_iff, Option.all_eq_true]

instance (info : Record) : Decidable (Classed info) := decidable_of_iff _ classed_iff.symm

end NoteMarkup.Node
