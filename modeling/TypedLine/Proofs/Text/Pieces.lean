import TypedLine.Text.Line

/-!
# What the pieces of a text are

A text is cut at a separator by cutting what stands before it and what stands after it
(`pieces_append_cons`), so a piece of a text is what stands between two separators, or between one
and an end of the text: `mem_pieces_iff`.
-/

namespace TypedLine.Text

variable {sep : Char} {cs piece : List Char}

/-- A text without separators is a single piece. -/
theorem pieces_of_notMem (h : sep ∉ cs) : pieces sep cs = [cs] := by
  induction cs with
  | nil => rfl
  | cons c cs ih =>
    obtain ⟨hc, hcs⟩ := List.ne_and_not_mem_of_not_mem_cons h
    rw [pieces, if_neg (Ne.symm hc), ih hcs]

/-- **Every separator cuts the text in two.** -/
theorem pieces_append_cons (sep : Char) (front back : List Char) :
    pieces sep (front ++ sep :: back) = pieces sep front ++ pieces sep back := by
  induction front with
  | nil => rw [List.nil_append, pieces.eq_2, if_pos rfl, pieces.eq_1, List.singleton_append]
  | cons c front ih =>
    rw [List.cons_append, pieces, pieces, ih]
    by_cases hc : c = sep
    · rw [if_pos hc, if_pos hc, List.cons_append]
    · rw [if_neg hc, if_neg hc]
      rcases hp : pieces sep front with - | ⟨p, ps⟩
      · exact absurd hp (pieces_ne_nil sep front)
      · rfl

/-- `piece` is a **piece** of the text: it stands between two separators, or between one and an
end of the text, and has no separator inside. -/
structure IsPiece (sep : Char) (cs piece : List Char) : Prop where
  /-- No separator inside. -/
  notMem : sep ∉ piece
  /-- It fills the place between what stands before it and what stands after it. -/
  between : ∃ front back, cs = front ++ piece ++ back ∧
    (front = [] ∨ ∃ front', front = front' ++ [sep]) ∧ (back = [] ∨ ∃ back', back = sep :: back')

namespace IsPiece

/-- A piece of what stands after a separator is a piece of the text. -/
theorem append_cons (h : IsPiece sep cs piece) (front : List Char) :
    IsPiece sep (front ++ sep :: cs) piece := by
  obtain ⟨hpiece, mid, back, rfl, hmid, hback⟩ := h
  refine ⟨hpiece, front ++ sep :: mid, back, by simp, .inr ?_, hback⟩
  rcases hmid with rfl | ⟨mid', rfl⟩
  · exact ⟨front, rfl⟩
  · exact ⟨front ++ sep :: mid', by simp⟩

/-- What stands before the first separator is a piece. -/
theorem head (hpiece : sep ∉ piece) (back : List Char) : IsPiece sep (piece ++ sep :: back) piece :=
  ⟨hpiece, [], sep :: back, rfl, .inl rfl, .inr ⟨back, rfl⟩⟩

/-- A text without separators is a piece of itself. -/
theorem refl (hpiece : sep ∉ piece) : IsPiece sep piece piece :=
  ⟨hpiece, [], [], by simp, .inl rfl, .inl rfl⟩

end IsPiece

theorem isPiece_of_mem_pieces (h : piece ∈ pieces sep cs) : IsPiece sep cs piece := by
  -- Induction on the length: the text behind the first separator is the shorter one.
  induction hn : cs.length using Nat.strongRecOn generalizing cs with
  | ind n ih =>
    by_cases hsep : sep ∈ cs
    · obtain ⟨front, back, rfl, hfront⟩ := List.eq_append_cons_of_mem hsep
      rw [pieces_append_cons, pieces_of_notMem hfront, List.singleton_append, List.mem_cons] at h
      rcases h with rfl | h
      · exact .head hfront back
      · exact (ih back.length (by simp at hn; omega) h rfl).append_cons front
    · rw [pieces_of_notMem hsep, List.mem_singleton] at h
      subst h
      exact .refl hsep

theorem IsPiece.mem_pieces (h : IsPiece sep cs piece) : piece ∈ pieces sep cs := by
  obtain ⟨hpiece, front, back, rfl, hfront, hback⟩ := h
  -- First cut off what stands behind the piece, then what stands before it.
  have hmem : piece ∈ pieces sep (piece ++ back) := by
    rcases hback with rfl | ⟨back, rfl⟩
    · simp [pieces_of_notMem hpiece]
    · simp [pieces_append_cons, pieces_of_notMem hpiece]
  rcases hfront with rfl | ⟨front, rfl⟩
  · exact hmem
  · rw [List.append_assoc, List.append_assoc, List.singleton_append, pieces_append_cons]
    exact List.mem_append_right _ hmem

/-- **The pieces are what stands between the separators.** -/
theorem mem_pieces_iff : piece ∈ pieces sep cs ↔ IsPiece sep cs piece :=
  ⟨isPiece_of_mem_pieces, IsPiece.mem_pieces⟩

instance (sep : Char) (cs piece : List Char) : Decidable (IsPiece sep cs piece) :=
  decidable_of_iff (piece ∈ pieces sep cs) mem_pieces_iff

end TypedLine.Text
