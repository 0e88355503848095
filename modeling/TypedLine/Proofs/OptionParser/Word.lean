import TypedLine.OptionParser
import TypedLine.Proofs.Text.LongestRun

/-!
# The forms of words

What a word of the command line looks like, said by its text: two minus signs alone
(`ofString_eq_dashes_iff`), a long option with or without a value (`ofString_eq_long_iff`), a minus
sign with letters behind it (`ofString_eq_letters_iff`), or none of these.
-/

namespace TypedLine.Word

open Text

variable {w name : String} {value : Option String} {c : Char} {cs others : List Char}

theorem ofString_eq_dashes_iff : ofString w = .dashes ↔ w = "--" := by
  refine ⟨fun h ↦ ?_, fun h ↦ h ▸ rfl⟩
  rw [ofString] at h
  split at h
  · rename_i hw
    exact String.toList_inj.1 hw
  · split at h <;> cases h
  · cases h
  · cases h

/-! ### Long options -/

/-- What stands behind the name of a long option: its value behind an equals sign. -/
def valueText : Option String → List Char
  | none => []
  | some v => '=' :: v.toList

/-- Behind two minus signs the name goes up to the equals sign, if there is one. -/
theorem ofString_of_longestRun {run : List Char} (hw : w.toList = '-' :: '-' :: cs) (hcs : cs ≠ [])
    (hrun : LongestRun (· ≠ '=') cs run (valueText value)) :
    ofString w = .long (String.ofList run) value := by
  obtain ⟨d, ds, rfl⟩ := List.exists_cons_of_ne_nil hcs
  rw [ofString, hw]
  simp only [hrun.takeWhile_eq, hrun.dropWhile_eq]
  cases value with
  | none => rfl
  | some v => simp only [valueText, String.ofList_toList]

/-- **A long option** is two minus signs, a name without an equals sign, and perhaps a value. -/
theorem ofString_eq_long_iff :
    ofString w = .long name value ↔ w ≠ "--" ∧ '=' ∉ name.toList ∧
      w.toList = '-' :: '-' :: (name.toList ++ valueText value) := by
  refine ⟨fun h ↦ ?_, fun ⟨hdashes, hequals, hw⟩ ↦ ?_⟩
  · have hdashes : w ≠ "--" := by
      rintro rfl
      cases h
    refine ⟨hdashes, ?_⟩
    rw [ofString] at h
    split at h
    · cases h
    · rename_i cs _ hw
      have hrun := longestRun_takeWhile (· ≠ '=') cs
      generalize cs.takeWhile (· ≠ '=') = run at h hrun
      have hequals : '=' ∉ run := fun hmem ↦ by simpa using hrun.holds '=' hmem
      split at h
      · rename_i hrest
        cases h
        rw [hrest] at hrun
        rw [String.toList_ofList, hw, ← hrun.append_eq]
        exact ⟨hequals, rfl⟩
      · rename_i ch rest hrest
        cases h
        rw [hrest] at hrun
        obtain rfl : ch = '=' := by simpa using hrun.stops ch rfl
        rw [String.toList_ofList, hw, ← hrun.append_eq, valueText, String.toList_ofList]
        exact ⟨hequals, rfl⟩
    · cases h
    · cases h
  · have hrun : LongestRun (· ≠ '=') (name.toList ++ valueText value) name.toList
        (valueText value) := by
      refine longestRun_append (fun ch hch ↦ ?_) fun ch hch ↦ ?_
      · have hne : ch ≠ '=' := fun heq ↦ hequals (heq ▸ hch)
        simpa using hne
      · cases value with
        | none => cases hch
        | some v =>
          obtain rfl : '=' = ch := Option.some.inj hch
          rfl
    have hne : name.toList ++ valueText value ≠ [] := by
      intro hnil
      rw [hnil] at hw
      exact hdashes (String.toList_inj.1 hw)
    rw [ofString_of_longestRun hw hne hrun, String.ofList_toList]

/-! ### Letters -/

/-- **Letters** stand behind one minus sign. -/
theorem ofString_eq_letters_iff :
    ofString w = .letters c others ↔ w.toList = '-' :: c :: others ∧ c ≠ '-' := by
  refine ⟨fun h ↦ ?_, fun ⟨hw, hc⟩ ↦ ?_⟩
  · rw [ofString] at h
    split at h
    · cases h
    · split at h <;> cases h
    · rename_i hw
      cases h
      exact ⟨hw, ‹c = '-' → False›⟩
    · cases h
  · rw [ofString, hw]
    split
    · rename_i heq
      cases heq
      exact absurd rfl hc
    · rename_i heq
      cases heq
      exact absurd rfl hc
    · rename_i heq
      cases heq
      rfl
    · rename_i hother
      exact absurd rfl (hother c others)

end TypedLine.Word
