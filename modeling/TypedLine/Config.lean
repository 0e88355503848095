import TypedLine.Failure
import TypedLine.Storage
import TypedLine.Text.Whitespace

/-!
# Configuration

What the program is told besides the commands: which script to run, which of its lines are
comments, and whether to go on after a line that fails. A configuration is checked against the
stored files before it is used.
-/

namespace TypedLine

/-- The settings of a run. -/
structure Config where
  /-- Whether to go on after a line of the script that fails. -/
  keepGoing : Bool := false
  /-- The path of the script, if there is one. -/
  scriptPath : Option String := none
  /-- What a comment line starts with. -/
  commentPrefix : String := "#"
  deriving DecidableEq, Repr

namespace Config

/-- Whether a line of the script is left out: a blank line, or one that starts with the comment
prefix after its leading whitespace. -/
def ignores (c : Config) (line : String) : Bool :=
  let line := Text.trim line
  line.isEmpty || c.commentPrefix.toList.isPrefixOf line.toList

/-- Check that the script, if there is one, is a file, and that the comment prefix is not
blank. -/
def validate (c : Config) (storage : Storage) : Except Failure Unit :=
  match c.scriptPath.filter fun path ↦ !(storage path).isFile with
  | some path => .error (.config ("Script file not found: " ++ path))
  | none =>
    if Text.isBlank c.commentPrefix then .error (.config "Comment prefix must not be empty")
    else .ok ()

/-- What the check asks for. -/
theorem validate_eq_ok_iff {c : Config} {storage : Storage} :
    c.validate storage = .ok () ↔
      (∀ path ∈ c.scriptPath, (storage path).isFile = true) ∧
        Text.isBlank c.commentPrefix = false := by
  have hfile : (∀ path ∈ c.scriptPath, (storage path).isFile = true) ↔
      c.scriptPath.filter (fun path ↦ !(storage path).isFile) = none := by
    simp [Option.filter_eq_none_iff]
  rw [hfile, validate]
  split
  · rename_i hmissing
    simp [hmissing]
  · rename_i hmissing
    cases hblank : Text.isBlank c.commentPrefix <;> simp [hmissing]

end Config

end TypedLine
