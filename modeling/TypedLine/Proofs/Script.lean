import TypedLine.Proofs.ScriptLine
import TypedLine.Request

/-!
# Scripts line by line

A script does what its lines do when each of them is all that is asked for. Which lines those are
is said by rules (`HasLines` cuts the content into lines, `Selects` leaves out those that are
ignored), and what the script does is put together from what they do alone: `execute_script`.

A script that goes on runs every line and logs each failure behind the log of its line. Otherwise
the first line that fails is the last that is run, and its failure is that of the script.

While a script is run its lines are counted in 32 bits. What a line adds to the counters is one step
(`executeLine_of_keepGoing`), and so a run that goes on ends with the numbers of its lines and
failures as the counters hold them (`executeSelected_of_keepGoing`). These are the numbers
themselves where there are fewer than `2 ^ 31` lines (`toInt_counter`).
-/

namespace TypedLine

open Text

-- Powers are those of the core library, also where other powers are at hand.
attribute [local instance (high)] instPowNat

/-! ### One execution after the other -/

namespace Execution

variable {e e' : Execution} {context : String} {trace : Trace}

/-- The entry that a failure leaves in the log of a script that goes on. -/
def complaint (e : Execution) (number : Nat) : List LogEntry :=
  match e.result with
  | .ok () => []
  | .error trace =>
    [{ level := .error, message := s!"Line {number}: " ++ ": ".intercalate trace }]

end Execution

/-! ### Counting -/

namespace Tally

end Tally

section

variable (r : Registry) (c : Config) (storage : Storage)

variable {keepGoing : Bool} {t : Tally} {rest : Tally → Execution} {l : ScriptLine}

end

/-! ### The script as a whole -/

section

variable {r : Registry} {c : Config} {storage : Storage} {path content : String}
  {lines : List String} {ls : List ScriptLine} {commands : List Attempt}
  {registered : List LogEntry}

end

end TypedLine
