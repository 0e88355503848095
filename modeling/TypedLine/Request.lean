import TypedLine.Execution

/-!
# Requests

What the program can be asked to do: run one line, run a script, or list its commands. A request
fixes the configuration; the configuration is checked against the stored files, and if it holds
the request is carried out. To carry it out from the beginning, the commands are registered first
(`Request.carryOut`).
-/

namespace TypedLine

/-- What the program is asked to do. -/
inductive Request where
  /-- Run one line, given by its words. -/
  | run (words : List String)
  /-- Run a script. -/
  | script (path : String) (keepGoing : Bool) (commentPrefix : String)
  /-- List the commands. -/
  | list
  deriving DecidableEq, Repr

namespace Request

/-- The configuration that a request asks for. Only a script has settings of its own. -/
def config : Request → Config
  | script path keepGoing commentPrefix => ⟨keepGoing, some path, commentPrefix⟩
  | _ => {}

/-- Carry a request out under a configuration. The words of a line are joined by single spaces. -/
def execute (request : Request) (r : Registry) (c : Config) (storage : Storage) : Execution :=
  match request with
  | run words => r.execute (" ".intercalate words)
  | script .. => r.executeConfigured c storage
  | list => r.executeListing

/-- The configuration that a request asks for, if it holds. -/
def checkedConfig (request : Request) (storage : Storage) : Except Failure Config :=
  (request.config.validate storage).map fun () ↦ request.config

/-- Check the configuration that a request asks for, and carry the request out under it. -/
def perform (request : Request) (r : Registry) (storage : Storage) : Except Failure Execution :=
  (request.checkedConfig storage).map fun c ↦ request.execute r c storage

/-- Register the commands, and carry a request out with them. -/
def carryOut (request : Request) (commands : List Attempt) (c : Config) (storage : Storage) :
    Execution :=
  let registered := Registry.empty.registerAll commands
  (Execution.noted registered.1).andThen <|
    match registered.2 with
    | .error e => .failed ("Failed to register built-in commands" :: e.chain)
    | .ok r =>
      (Execution.logged .debug s!"Registered {r.size} built-in commands").andThen
        (request.execute r c storage)

end Request

end TypedLine
