import TypedLine.Proofs.ScriptLine
import TypedLine.Proofs.Text.Trim

/-!
# Comment lines

A line of a script that starts with the comment prefix is to be left out. But the line is trimmed
before it is compared, and the prefix is not. So a prefix that starts with whitespace is that of no
line at all, and one that ends with whitespace misses the comments that say nothing: there it is
trimmed off the line. The prefixes of which the rule holds are those without whitespace at their
ends: `ignores_commentPrefix_iff`.
-/

namespace TypedLine

open Text

/-- What is left of the prefix when the line behind it is trimmed: all of it, unless it starts with
whitespace or ends with whitespace that nothing follows. -/
theorem prefix_trimmed_iff {front rest : List Char} (hfront : ∃ ch ∈ front, isSpace ch = false) :
    front <+: trimEnd (trimStart (front ++ rest)) ↔
      (∀ ch ∈ front.head?, isSpace ch = false) ∧
        ((∀ ch ∈ front.getLast?, isSpace ch = false) ∨ ∃ ch ∈ rest, isSpace ch = false) := by
  by_cases hhead : ∀ ch ∈ front.head?, isSpace ch = false
  · have hstart : trimStart (front ++ rest) = front ++ rest := by
      rw [trimStart_append_of_exists hfront, trimStart_eq_self_iff.2 hhead]
    rw [hstart]
    by_cases hrest : ∃ ch ∈ rest, isSpace ch = false
    · rw [trimEnd_append_of_exists hrest]
      exact iff_of_true (List.prefix_append _ _) ⟨hhead, .inr hrest⟩
    · have hblank : ∀ ch ∈ rest, isSpace ch = true := by simpa using hrest
      have hwhole : front <+: trimEnd front ↔ trimEnd front = front :=
        ⟨fun h ↦ (trimEnd_isPrefix front).eq_of_length_le h.length_le,
          fun h ↦ ⟨[], (List.append_nil front).trans h.symm⟩⟩
      rw [trimEnd_append_of_forall hblank, hwhole, trimEnd_eq_self_iff, or_iff_left hrest,
        and_iff_right hhead]
  · -- The prefix starts with whitespace, and what has been trimmed does not.
    refine iff_of_false (fun h ↦ hhead fun ch hch ↦ ?_) fun h ↦ hhead h.1
    obtain ⟨back, hback⟩ := h.trans (trimEnd_isPrefix _)
    refine @isSpace_head?_trimStart (front ++ rest) ch ?_
    rw [← hback, List.head?_append, Option.mem_def.1 hch]
    rfl

namespace Config

variable {c : Config} {storage : Storage}

/-- A configuration is refused for a blank comment prefix. -/
theorem isBlank_commentPrefix (hc : c.validate storage = .ok ()) :
    isBlank c.commentPrefix = false :=
  (validate_eq_ok_iff.1 hc).2

theorem ignores_iff {line : String} :
    c.ignores line = true ↔ isBlank line ∨ c.commentPrefix.toList <+: (trim line).toList := by
  rw [ignores, Bool.or_eq_true, String.isEmpty_iff, trim_eq_empty_iff, List.isPrefixOf_iff_prefix]

/-- The lines that are run are those that are not ignored, in their places. -/
theorem mem_scriptLines_iff {content : String} {l : ScriptLine} :
    l ∈ c.scriptLines content ↔ ∃ line, 1 ≤ l.number ∧
      (physicalLines content)[l.number - 1]? = some line ∧ c.ignores line = false ∧
        l.text = trim line := by
  rw [scriptLines, List.mem_filterMap]
  refine ⟨fun h ↦ ?_, fun h ↦ ?_⟩
  · obtain ⟨⟨line, number⟩, hmem, hl⟩ := h
    obtain ⟨hnumber, hline⟩ := List.mk_mem_zipIdx_iff_le_and_getElem?_sub.1 hmem
    by_cases hignored : c.ignores line
    · simp [hignored] at hl
    · simp only [hignored, Bool.false_eq_true, if_false, Option.some.injEq] at hl
      subst hl
      exact ⟨line, hnumber, hline, Bool.eq_false_iff.2 hignored, rfl⟩
  · obtain ⟨line, hnumber, hline, hkept, htext⟩ := h
    refine ⟨(line, l.number), List.mk_mem_zipIdx_iff_le_and_getElem?_sub.2 ⟨hnumber, hline⟩, ?_⟩
    simp only [hkept, Bool.false_eq_true, if_false, ← htext]

/-- **Which comments are left out.** A line that starts with the comment prefix is ignored exactly
when there is no whitespace in front of the prefix, and none behind it unless the comment says
something. So all such lines are ignored, and none of them is run, exactly when the prefix is
trimmed. -/
theorem ignores_commentPrefix_iff (hc : c.validate storage = .ok ()) :
    (∀ rest, c.ignores (c.commentPrefix ++ rest) = true ↔
      (∀ ch ∈ c.commentPrefix.toList.head?, isSpace ch = false) ∧
        ((∀ ch ∈ c.commentPrefix.toList.getLast?, isSpace ch = false) ∨ isBlank rest = false)) ∧
    ((∀ rest, c.ignores (c.commentPrefix ++ rest) = true) ↔
      trim c.commentPrefix = c.commentPrefix) ∧
    (trim c.commentPrefix = c.commentPrefix → ∀ content, ∀ l ∈ c.scriptLines content, ∀ rest,
      (physicalLines content)[l.number - 1]? ≠ some (c.commentPrefix ++ rest)) := by
  have hsolid := isBlank_eq_false_iff.1 (isBlank_commentPrefix hc)
  have hrule : ∀ rest, c.ignores (c.commentPrefix ++ rest) = true ↔
      (∀ ch ∈ c.commentPrefix.toList.head?, isSpace ch = false) ∧
        ((∀ ch ∈ c.commentPrefix.toList.getLast?, isSpace ch = false) ∨ isBlank rest = false) := by
    intro rest
    have hline : ¬ isBlank (c.commentPrefix ++ rest) := by
      obtain ⟨ch, hch, hspace⟩ := hsolid
      intro hblank
      rw [isBlank_iff.1 hblank ch (by simp [hch])] at hspace
      cases hspace
    rw [ignores_iff, or_iff_right hline, trim, String.toList_ofList, String.toList_append,
      prefix_trimmed_iff hsolid, isBlank_eq_false_iff]
  have hall : (∀ rest, c.ignores (c.commentPrefix ++ rest) = true) ↔
      trim c.commentPrefix = c.commentPrefix := by
    rw [trim_eq_self_iff]
    refine ⟨fun h ↦ ?_, fun h rest ↦ (hrule rest).2 ⟨h.1, .inl h.2⟩⟩
    -- The comment that says nothing is the one that a prefix can miss.
    obtain ⟨hhead, hlast | hrest⟩ := (hrule "").1 (h "")
    · exact ⟨hhead, hlast⟩
    · cases hrest
  refine ⟨hrule, hall, fun htrim content l hl rest hline ↦ ?_⟩
  obtain ⟨line, -, hline', hkept, -⟩ := mem_scriptLines_iff.1 hl
  obtain rfl : c.commentPrefix ++ rest = line := Option.some.inj (hline.symm.trans hline')
  rw [hall.2 htrim rest] at hkept
  cases hkept

/-- With the prefix that is a mark and a space, the line of the two is not ignored, but a comment
behind them is. -/
theorem ignores_commentPrefix_mark :
    (Config.mk false none "# ").validate (fun _ ↦ .missing) = .ok () ∧
      (Config.mk false none "# ").ignores ("# " ++ "") = false ∧
      (Config.mk false none "# ").ignores ("# " ++ "x") = true := by
  have hc : (Config.mk false none "# ").validate (fun _ ↦ .missing) = .ok () := by decide +kernel
  obtain ⟨hrule, -, -⟩ := ignores_commentPrefix_iff hc
  have hhead : ∀ ch ∈ "# ".toList.head?, isSpace ch = false := by
    rintro _ ⟨⟩
    rfl
  refine ⟨hc, Bool.eq_false_iff.2 fun h ↦ ?_, (hrule "x").2 ⟨hhead, .inr rfl⟩⟩
  obtain ⟨-, hlast | hrest⟩ := (hrule "").1 h
  · exact nomatch hlast ' ' rfl
  · exact nomatch hrest

/-- The prefix of a space and a mark is accepted, and the line of a space, the mark and a comment
starts with it. The line is not ignored. -/
theorem not_ignores_indented_mark :
    (Config.mk false none " #").validate (fun _ ↦ .missing) = .ok () ∧
      " #".toList <+: " # x".toList ∧ (Config.mk false none " #").ignores " # x" = false := by
  decide +kernel

end Config

end TypedLine
