import TypedLine.Text.Utf8

/-!
# Longest runs

Every scan of the library takes the longest run of characters of some class off the front of a
text. `LongestRun` says what that is without a scan: the run lies in the class, and what follows
it starts with no character of the class. The scan finds it, and there is no other
(`longestRun_iff`).
-/

namespace TypedLine.Text

/-- The text `cs` starts with `run`, the **longest run** of characters with `p`, and goes on with
`rest`. -/
structure LongestRun (p : Char → Bool) (cs run rest : List Char) : Prop where
  /-- The two parts are the text. -/
  append_eq : run ++ rest = cs
  /-- The run lies in the class. -/
  holds : ∀ ch ∈ run, p ch = true
  /-- The run goes no further. -/
  stops : ∀ ch ∈ rest.head?, p ch = false

variable {p : Char → Bool} {cs run rest : List Char}

theorem longestRun_takeWhile (p : Char → Bool) (cs : List Char) :
    LongestRun p cs (cs.takeWhile p) (cs.dropWhile p) where
  append_eq := List.takeWhile_append_dropWhile
  holds := fun _ hch ↦ List.all_eq_true.1 List.all_takeWhile _ hch
  stops := by
    intro ch hch
    have := List.head?_dropWhile_not p cs
    rw [Option.mem_def.1 hch] at this
    simpa using this

namespace LongestRun

/-- A scan finds the run. -/
theorem takeWhile_eq (h : LongestRun p cs run rest) : cs.takeWhile p = run := by
  rw [← h.append_eq, List.takeWhile_append_of_pos h.holds]
  rcases hr : rest with - | ⟨ch, rest'⟩
  · simp
  · rw [List.takeWhile_cons_of_neg (by simp [h.stops ch (by simp [hr])]), List.append_nil]

/-- And it leaves the rest. -/
theorem dropWhile_eq (h : LongestRun p cs run rest) : cs.dropWhile p = rest := by
  have hscan : cs.takeWhile p ++ cs.dropWhile p = run ++ rest := by
    rw [List.takeWhile_append_dropWhile, h.append_eq]
  rw [h.takeWhile_eq] at hscan
  exact List.append_cancel_left hscan

/-- Whatever else of the class the text starts with is a part of it. -/
theorem isPrefix {cs' : List Char} (h : LongestRun p cs run rest) (hcs' : cs' <+: cs)
    (hp : ∀ ch ∈ cs', p ch = true) : cs' <+: run := by
  obtain ⟨more, rfl⟩ := hcs'
  have hrun := h.takeWhile_eq
  rw [List.takeWhile_append_of_pos hp] at hrun
  exact ⟨more.takeWhile p, hrun⟩

end LongestRun

/-- **The longest run is what a scan takes.** -/
theorem longestRun_iff : LongestRun p cs run rest ↔ cs.takeWhile p = run ∧ cs.dropWhile p = rest := by
  refine ⟨fun h ↦ ?_, fun h ↦ ?_⟩
  · exact ⟨h.takeWhile_eq, h.dropWhile_eq⟩
  · obtain ⟨rfl, rfl⟩ := h
    exact longestRun_takeWhile p cs

/-- A run before a character outside the class is as long as can be. -/
theorem longestRun_append (hrun : ∀ ch ∈ run, p ch = true) (hrest : ∀ ch ∈ rest.head?, p ch = false) :
    LongestRun p (run ++ rest) run rest :=
  ⟨rfl, hrun, hrest⟩

end TypedLine.Text
