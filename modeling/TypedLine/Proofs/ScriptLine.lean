import TypedLine.Execution
import TypedLine.Proofs.Text.PhysicalLines

/-!
# The lines of a script that are run

A script is run from its first line to its last, with those left out that the configuration ignores.
What remains are its **script lines** (`Config.scriptLines`), each trimmed and with its number. By
rules that is `Selects`, and a script does what its script lines do, and nothing else:
`executeScript_eq`.
-/

namespace TypedLine

open Text

/-- A line of a script that is to be run. -/
structure ScriptLine where
  /-- The number of the line among all lines of the script, from one. -/
  number : Nat
  /-- The line, trimmed. -/
  text : String
  deriving DecidableEq, Repr

/-- The lines of the script `content` that are to be run. -/
def Config.scriptLines (c : Config) (content : String) : List ScriptLine :=
  ((physicalLines content).zipIdx 1).filterMap fun (line, number) ↦
    if c.ignores line then none else some ⟨number, trim line⟩

/-- Of the lines that are numbered from `number`, the script lines are those that the configuration
does not ignore, trimmed and with their numbers. -/
inductive Selects (c : Config) : (number : Nat) → List String → List ScriptLine → Prop
  | nil {number : Nat} : Selects c number [] []
  | ignored {number : Nat} {line : String} {lines : List String} {ls : List ScriptLine} :
    c.ignores line = true → Selects c (number + 1) lines ls → Selects c number (line :: lines) ls
  | kept {number : Nat} {line : String} {lines : List String} {ls : List ScriptLine} :
    c.ignores line = false → Selects c (number + 1) lines ls →
      Selects c number (line :: lines) (⟨number, trim line⟩ :: ls)

/-- The lines that are selected among numbered lines. -/
theorem Selects.eq_filterMap {c : Config} {number : Nat} {lines : List String}
    {ls : List ScriptLine} (h : Selects c number lines ls) :
    ((lines.zipIdx number).filterMap fun (line, number) ↦
      if c.ignores line then none else some (ScriptLine.mk number (trim line))) = ls := by
  induction h with
  | nil => rfl
  | ignored hline _ ih => simp [hline, ih]
  | kept hline _ ih => simp [hline, ih]

/-- **The rules select the lines of a script.** -/
theorem scriptLines_eq {c : Config} {content : String} {lines : List String}
    {ls : List ScriptLine} (hlines : HasLines content.toList lines) (hls : Selects c 1 lines ls) :
    c.scriptLines content = ls := by
  rw [Config.scriptLines, hasLines_iff.1 hlines]
  exact hls.eq_filterMap

/-- They select some lines of every script. -/
theorem exists_selects (c : Config) (number : Nat) (lines : List String) :
    ∃ ls, Selects c number lines ls := by
  induction lines generalizing number with
  | nil => exact ⟨[], .nil⟩
  | cons line lines ih =>
    obtain ⟨ls, hls⟩ := ih (number + 1)
    by_cases hline : c.ignores line
    · exact ⟨ls, .ignored hline hls⟩
    · exact ⟨_, .kept (Bool.eq_false_iff.2 hline) hls⟩

namespace Registry

/-- Run script lines in turn. -/
def executeSelected (r : Registry) (keepGoing : Bool) : List ScriptLine → Tally → Execution
  | [], t => t.conclusion
  | l :: ls, t => r.executeLine keepGoing l.number l.text t (r.executeSelected keepGoing ls)

/-- A line that is ignored does nothing, and counts for nothing. -/
theorem executeLines_of_selects {r : Registry} {c : Config} {number : Nat} {lines : List String}
    {ls : List ScriptLine} (h : Selects c number lines ls) :
    r.executeLines c number lines = r.executeSelected c.keepGoing ls := by
  induction h with
  | nil => rfl
  | ignored hline _ ih =>
    funext t
    rw [executeLines, if_pos hline, ih]
  | kept hline _ ih =>
    funext t
    rw [executeLines, if_neg (by simp [hline]), ih]
    rfl

/-- **A script does what its script lines do.** -/
theorem executeScript_eq (r : Registry) (c : Config) (content : String) :
    r.executeScript c content = r.executeSelected c.keepGoing (c.scriptLines content) {} := by
  obtain ⟨ls, hls⟩ := exists_selects c 1 (physicalLines content)
  rw [scriptLines_eq (hasLines_iff.2 rfl) hls, executeScript, executeLines_of_selects hls]

end Registry

end TypedLine
