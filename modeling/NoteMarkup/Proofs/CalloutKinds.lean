import NoteMarkup.Callout
import NoteMarkup.Proofs.LowerCase

/-! Canonical kinds of callouts. The kinds that aliases stand for are in lower case and stand for
themselves, and so does a kind outside the table once it is in lower case. So the canonical kind of a
canonical kind is that kind, and the case in which a kind is written does not matter. -/

namespace NoteMarkup.Callout

open Text

variable {kind : String}

/-- The kind in lower case, as it is looked up. -/
def lowered (kind : String) : String := String.ofList (lower kind.toList)

theorem canonical_eq (kind : String) :
    canonical kind = (aliases.lookup (lowered kind)).getD (lowered kind) := rfl

theorem lowered_lowered (kind : String) : lowered (lowered kind) = lowered kind := by
  rw [lowered, lowered, String.toList_ofList, lower_lower]

theorem canonical_lowered (kind : String) : canonical (lowered kind) = canonical kind := by
  rw [canonical_eq, canonical_eq, lowered_lowered]

/-- What an alias stands for is a kind of the table that stands for itself. -/
theorem aliases_closed :
    ∀ p ∈ aliases, lowered p.2 = p.2 ∧ aliases.lookup p.2 = some p.2 := by decide +kernel

theorem mem_of_lookup_eq_some {found : String} (h : aliases.lookup kind = some found) :
    (kind, found) ∈ aliases := by
  obtain ⟨front, back, split, -⟩ := List.lookup_eq_some_iff.mp h
  rw [split]
  exact List.mem_append_right _ List.mem_cons_self

/-- A kind is an alias of its canonical kind, or is outside the table and put into lower case. -/
theorem alias_or_custom (kind : String) :
    (lowered kind, canonical kind) ∈ aliases ∨
      lowered kind ∉ aliases.map Prod.fst ∧ canonical kind = lowered kind := by
  rw [canonical_eq]
  cases found : aliases.lookup (lowered kind) with
  | some other => exact .inl (mem_of_lookup_eq_some found)
  | none =>
      refine .inr ⟨fun listed => ?_, rfl⟩
      obtain ⟨p, member, same⟩ := List.mem_map.mp listed
      have apart := List.lookup_eq_none_iff.mp found p member
      simp [same] at apart

theorem canonical_canonical (kind : String) : canonical (canonical kind) = canonical kind := by
  rcases alias_or_custom kind with listed | ⟨-, custom⟩
  · obtain ⟨small, self⟩ := aliases_closed _ listed
    rw [canonical_eq (canonical kind), small, self, Option.getD_some]
  · rw [custom, canonical_lowered, custom]

/-- The canonical kind of a kind is its own canonical kind, and that of the kind in lower case; it is
what the table says, or the kind in lower case if the table does not have it. -/
theorem kinds_canonical (kind : String) :
    canonical (canonical kind) = canonical kind ∧
    canonical (lowered kind) = canonical kind ∧
    ((lowered kind, canonical kind) ∈ aliases ∨
      lowered kind ∉ aliases.map Prod.fst ∧ canonical kind = lowered kind) :=
  ⟨canonical_canonical kind, canonical_lowered kind, alias_or_custom kind⟩

end NoteMarkup.Callout
