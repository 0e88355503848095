import Mathlib.Data.List.DropRight
import TypedLine.Text.Whitespace

/-!
# Trimming

What trimming does to a text that is put together from two. Whitespace at an end is lost, and
anything else keeps what stands on its inner side: `trimStart_append_of_exists`,
`trimEnd_append_of_forall`, `trimEnd_append_of_exists`. So a text is left as it is exactly when it
neither starts nor ends with whitespace (`trim_eq_self_iff`).
-/

namespace TypedLine.Text

variable {cs ds : List Char} {s : String}

/-! ### The front -/

theorem trimStart_eq_self_iff : trimStart cs = cs ↔ ∀ ch ∈ cs.head?, isSpace ch = false := by
  rcases cs with - | ⟨c, cs⟩
  · simp [trimStart]
  · rw [trimStart, List.dropWhile_eq_self_iff]
    simp

/-- What is left starts with no whitespace. -/
theorem isSpace_head?_trimStart : ∀ ch ∈ (trimStart cs).head?, isSpace ch = false :=
  trimStart_eq_self_iff.1 (List.dropWhile_idempotent isSpace cs)

/-- Anything else than whitespace keeps what stands behind it. -/
theorem trimStart_append_of_exists (h : ∃ ch ∈ cs, isSpace ch = false) :
    trimStart (cs ++ ds) = trimStart cs ++ ds := by
  have hne : ¬ (cs.dropWhile isSpace).isEmpty = true := by
    obtain ⟨ch, hch, hspace⟩ := h
    rw [List.isEmpty_iff, List.dropWhile_eq_nil_iff]
    intro hall
    rw [hall ch hch] at hspace
    cases hspace
  rw [trimStart, List.dropWhile_append, if_neg hne]
  rfl

/-! ### The end -/

theorem trimEnd_isPrefix (cs : List Char) : trimEnd cs <+: cs :=
  List.rdropWhile_prefix isSpace cs

theorem trimEnd_eq_self_iff : trimEnd cs = cs ↔ ∀ ch ∈ cs.getLast?, isSpace ch = false := by
  rw [← List.head?_reverse, ← trimStart_eq_self_iff, ← List.reverse_inj, trimEnd,
    List.reverse_reverse]
  rfl

/-- Whitespace is lost at the end. -/
theorem trimEnd_append_of_forall (h : ∀ ch ∈ ds, isSpace ch = true) :
    trimEnd (cs ++ ds) = trimEnd cs := by
  have hblank : ∀ ch ∈ ds.reverse, isSpace ch = true := fun ch hch ↦ h ch (List.mem_reverse.1 hch)
  rw [trimEnd, List.reverse_append, List.dropWhile_append_of_pos hblank]
  rfl

/-- Anything else than whitespace keeps what stands before it. -/
theorem trimEnd_append_of_exists (h : ∃ ch ∈ ds, isSpace ch = false) :
    trimEnd (cs ++ ds) = cs ++ trimEnd ds := by
  have hkept : trimStart (ds.reverse ++ cs.reverse) = trimStart ds.reverse ++ cs.reverse := by
    obtain ⟨ch, hch, hspace⟩ := h
    exact trimStart_append_of_exists ⟨ch, List.mem_reverse.2 hch, hspace⟩
  show (trimStart (cs ++ ds).reverse).reverse = cs ++ trimEnd ds
  rw [List.reverse_append, hkept, List.reverse_append, List.reverse_reverse]
  rfl

/-! ### Both -/

/-- Nothing is left of whitespace alone, and something of everything else. -/
theorem trim_eq_empty_iff : trim s = "" ↔ isBlank s := by
  rw [isBlank_iff, trim, ← String.toList_inj, String.toList_ofList]
  refine ⟨fun h ↦ ?_, fun h ↦ ?_⟩
  · have hblank : ∀ ch ∈ trimStart s.toList, isSpace ch = true := List.rdropWhile_eq_nil_iff.1 h
    rcases hstart : trimStart s.toList with - | ⟨ch, cs⟩
    · exact List.dropWhile_eq_nil_iff.1 hstart
    · have hsolid := @isSpace_head?_trimStart s.toList ch (by rw [hstart]; rfl)
      rw [hblank ch (by rw [hstart]; exact .head _)] at hsolid
      cases hsolid
  · have hstart : trimStart s.toList = [] := List.dropWhile_eq_nil_iff.2 h
    rw [hstart]
    rfl

/-- **A text is trimmed already** when there is no whitespace at its ends. -/
theorem trim_eq_self_iff : trim s = s ↔ (∀ ch ∈ s.toList.head?, isSpace ch = false) ∧
    ∀ ch ∈ s.toList.getLast?, isSpace ch = false := by
  rw [← trimStart_eq_self_iff, ← trimEnd_eq_self_iff, trim, ← String.toList_inj,
    String.toList_ofList]
  refine ⟨fun h ↦ ?_, fun ⟨hstart, hend⟩ ↦ by rw [hstart, hend]⟩
  -- Neither step may shorten the text, as the other one does not make up for it.
  have hle : s.toList.length ≤ (trimStart s.toList).length := by
    calc s.toList.length = (trimEnd (trimStart s.toList)).length := by rw [h]
      _ ≤ (trimStart s.toList).length := (trimEnd_isPrefix _).length_le
  have hstart : trimStart s.toList = s.toList :=
    (List.dropWhile_suffix isSpace).eq_of_length_le hle
  rw [hstart] at h
  exact ⟨hstart, h⟩

/-- What has been trimmed is trimmed already. -/
@[simp] theorem trim_trim (s : String) : trim (trim s) = trim s := by
  rw [trim_eq_self_iff, trim, String.toList_ofList]
  refine ⟨fun ch hch ↦ ?_, ?_⟩
  · obtain ⟨rest, hrest⟩ := trimEnd_isPrefix (trimStart s.toList)
    refine @isSpace_head?_trimStart s.toList ch ?_
    rw [← hrest, List.head?_append, Option.mem_def.1 hch]
    rfl
  · exact trimEnd_eq_self_iff.1 (List.rdropWhile_idempotent isSpace _)

/-- Whitespace in front does not count. -/
theorem trim_blank_append (h : ∀ ch ∈ ds, isSpace ch = true) :
    trim (String.ofList (ds ++ cs)) = trim (String.ofList cs) := by
  have hstart : trimStart (ds ++ cs) = trimStart cs := List.dropWhile_append_of_pos h
  rw [trim, trim, String.toList_ofList, String.toList_ofList, hstart]

/-- Whitespace at the end does not count. -/
theorem trim_append_blank (h : ∀ ch ∈ ds, isSpace ch = true) :
    trim (String.ofList (cs ++ ds)) = trim (String.ofList cs) := by
  by_cases hcs : ∃ ch ∈ cs, isSpace ch = false
  · rw [trim, trim, String.toList_ofList, String.toList_ofList, trimStart_append_of_exists hcs,
      trimEnd_append_of_forall h]
  · -- All of it is whitespace then, and nothing is left of either text.
    have hblank : ∀ ch ∈ cs, isSpace ch = true := by simpa using hcs
    have hnone : ∀ {es : List Char}, (∀ ch ∈ es, isSpace ch = true) →
        trim (String.ofList es) = "" := fun hes ↦
      trim_eq_empty_iff.2 (isBlank_iff.2 (by rwa [String.toList_ofList]))
    rw [hnone hblank, hnone (List.forall_mem_append.2 ⟨hblank, h⟩)]

end TypedLine.Text
