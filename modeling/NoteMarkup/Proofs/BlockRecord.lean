import NoteMarkup.Proofs.BlockTrace

/-! What the record of block ids says about the tree that the stage gives. The record holds the last
block of every id. Each of these blocks stands in the tree, but a marker after it may have given it
another id since, and then the record is wrong. -/

namespace NoteMarkup.Stage.Blocks

open Node

/-- The names whose id is not given again later. -/
def standing : List Naming → List Naming
  | [] => []
  | x :: xs => if xs.any (·.id == x.id) then standing xs else x :: standing xs

section Record

variable {c : Context} {x : Naming} {xs : List Naming} {e : Value × Node}

end Record

/-- The stage gives a tree for every tree without ids. -/
theorem run_ok (o : Options) {d : Node} {c : Context} (log : Log.Records)
    (unnamed : ∀ n ∈ d.nodes, Unnamed n) :
    ∃ s, (visitMarker.run o d).outcome ⟨c, log⟩ = (.ok (some (mark d)), s) ∧
      s.context = recordAll c (namings .keep d) := by
  have unmarked : All Unmarked d := fun n hn => (unnamed n hn).unmarked
  obtain ⟨_, s, given, rfl, recorded⟩ := (transform_runs o d .keep false ⟨c, log⟩ unmarked).exists_ok
  exact ⟨s, given, recorded⟩

instance (x : Naming) : Decidable x.Lasts := inferInstanceAs (Decidable (_ = _))

end NoteMarkup.Stage.Blocks
