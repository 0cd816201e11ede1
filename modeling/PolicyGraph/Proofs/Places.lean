import PolicyGraph.Proofs.Readers

/-!
# What the program finds at a place

The account of a document counts the aliases that may still be followed, and an alias leads to the same
node whatever is left of it. So the reader of the program finds the same at a place whenever it finds
anything (`Document.steady_reader`).
-/

namespace PolicyGraph.Yaml

open Reading (Yields Settled settled_pure settled_throw)

namespace Place

variable {p : Place} {node : Node}

theorem eq_follow_of_yields (h : Yields p.node node) : node = p.doc.follow p.written := by
  obtain ⟨left, left', h⟩ := h
  simp only [Place.node, ofOption, StateT.run, Document.visit] at h
  cases hwritten : p.written with
  | «alias» slot =>
    simp only [hwritten] at h
    by_cases hleft : left = 0
    · simp [hleft] at h
    · simp only [hleft, if_false, Except.ok.injEq, Prod.mk.injEq] at h
      exact h.1.symm
  | scalar | sequence | mapping =>
    simp only [hwritten, Except.ok.injEq, Prod.mk.injEq] at h
    exact h.1.symm

theorem settled_node : Settled p.node :=
  fun _ _ h h' => (eq_follow_of_yields h).trans (eq_follow_of_yields h').symm

theorem settled_spelling {expected : String} : Settled (p.spelling expected) := by
  refine settled_node.bind fun node => ?_
  cases node with
  | scalar => exact settled_pure
  | «alias» | sequence | mapping => exact settled_throw

theorem settled_items : Settled p.items := by
  refine settled_node.bind fun node => ?_
  cases node with
  | sequence => exact settled_pure
  | «alias» | mapping => exact settled_throw
  | scalar =>
    simp only
    split
    · exact settled_pure
    · exact settled_throw

theorem entries_unique {expected expected' : String} {es es' : List (Place × Place)}
    (h : Yields (p.entries expected) es) (h' : Yields (p.entries expected') es') : es = es' := by
  obtain ⟨node, hnode, h⟩ := h.bind
  obtain ⟨node', hnode', h'⟩ := h'.bind
  obtain rfl := settled_node _ _ hnode hnode'
  cases node with
  | mapping => exact settled_pure _ _ h h'
  | «alias» | sequence => exact absurd h Reading.not_yields_throw
  | scalar =>
    simp only at h h'
    split at h
    · next hbare =>
      rw [if_pos hbare] at h'
      exact settled_pure _ _ h h'
    · exact absurd h Reading.not_yields_throw

theorem settled_nothingElse : Settled (p.nothingElse node) := by
  unfold nothingElse
  split
  · split
    · exact settled_pure
    · exact settled_throw
  · exact settled_throw

theorem settled_choice {mapping : Place} {names : List String} :
    Settled (choice mapping names p) := by
  refine settled_node.bind fun node => ?_
  have htagged : ∀ (fault : Fault) (tag : String), Settled (if names.contains tag then
      (do p.nothingElse node; return tag : Reading Nat String) else throw fault) := by
    intro fault tag
    split
    · exact settled_nothingElse.bind fun _ => settled_pure
    · exact settled_throw
  cases node with
  | «alias» => exact settled_throw
  | scalar properties style s =>
    simp only
    split
    · exact htagged _ _
    · split
      · exact settled_pure
      · exact settled_throw
  | sequence properties | mapping properties =>
    simp only
    split
    · exact htagged _ _
    · exact settled_throw

end Place

/-- The reader of the program finds one thing at a place or none. -/
theorem Document.steady_reader : Document.reader.Steady where
  text _ := Place.settled_spelling
  fieldName _ := Place.settled_spelling
  choice _ _ _ := Place.settled_choice
  items _ := Place.settled_items
  entries _ _ _ _ _ := Place.entries_unique

end PolicyGraph.Yaml
