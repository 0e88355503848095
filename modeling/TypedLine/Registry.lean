import TypedLine.Command
import TypedLine.Log
import TypedLine.Text.Case
import TypedLine.Text.Whitespace

/-!
# Registries

A registry holds commands under names. The letter case of a name does not count: a command is
held under the lower-case form of its name, its **key**, and is looked up by the lower-case form
of what is asked for. The entries stand in ascending order of their keys, so two registries that
hold the same commands are equal, in whatever order the commands were registered.

A command once registered stays: a second one under the same key is refused, and so is a blank
name. An **attempt** to register is answered, and leaves a registry behind in either case; many
attempts are made in turn, up to the first that is refused.
-/

namespace TypedLine

/-- A command under its key. -/
structure Entry where
  /-- The lower-case form of the name. -/
  key : String
  /-- The command. -/
  command : Command

/-- Commands under names, in ascending order of their keys. -/
structure Registry where
  /-- The commands with their keys. -/
  entries : List Entry
  /-- The keys ascend, so that no two are the same. -/
  ordered : entries.Pairwise fun a b ↦ a.key < b.key

namespace Registry

/-- The registry without commands. -/
def empty : Registry :=
  ⟨[], .nil⟩

/-- The command under the key `key`. -/
def lookup? (r : Registry) (key : String) : Option Command :=
  (r.entries.find? (·.key == key)).map Entry.command

/-- The command with the given name, in any letter case. -/
def find? (r : Registry) (name : String) : Option Command :=
  r.lookup? (Text.lowerCase name)

/-- Whether a command has the given name, in any letter case. -/
def contains (r : Registry) (name : String) : Bool :=
  (r.find? name).isSome

/-- The signature of the command with the given name. -/
def signature? (r : Registry) (name : String) : Option (List Kind) :=
  (r.find? name).map Command.signature

/-- The keys, in ascending order. -/
def names (r : Registry) : List String :=
  r.entries.map Entry.key

/-- The number of commands. -/
def size (r : Registry) : Nat :=
  r.entries.length

/-- Whether there is no command. -/
def isEmpty (r : Registry) : Bool :=
  r.entries.isEmpty

/-! ### Registering -/

/-- Put an entry before the first one with a greater key. -/
def place (e : Entry) : List Entry → List Entry
  | [] => [e]
  | a :: as => if e.key < a.key then e :: a :: as else a :: place e as

theorem mem_place {e a : Entry} {as : List Entry} : a ∈ place e as ↔ a = e ∨ a ∈ as := by
  induction as with
  | nil => simp [place]
  | cons b bs ih =>
    rw [place]
    split
    · simp
    · simp only [List.mem_cons, ih]
      grind

/-- The order is kept when a new key is put in its place. -/
theorem pairwise_place {e : Entry} {as : List Entry} (h : as.Pairwise fun a b ↦ a.key < b.key)
    (new : ∀ a ∈ as, a.key ≠ e.key) : (place e as).Pairwise fun a b ↦ a.key < b.key := by
  induction as with
  | nil => simp [place]
  | cons b bs ih =>
    obtain ⟨hb, hbs⟩ := List.pairwise_cons.1 h
    rw [place]
    split
    · rename_i lt
      refine List.pairwise_cons.2 ⟨fun a ha ↦ ?_, h⟩
      rcases List.mem_cons.1 ha with rfl | ha
      · exact lt
      · exact Std.lt_trans lt (hb a ha)
    · rename_i notLt
      refine List.pairwise_cons.2 ⟨fun a ha ↦ ?_, ih hbs fun a ha ↦ new a (.tail _ ha)⟩
      rcases mem_place.1 ha with rfl | ha
      · exact Std.lt_of_le_of_ne (Std.not_lt.1 notLt) (new b (.head _))
      · exact hb a ha

/-- Register `command` under `name`. -/
def register (r : Registry) (name : String) (command : Command) : Except Failure Registry :=
  if Text.isBlank name then .error (.invalidName name)
  else
    let key := Text.lowerCase name
    if taken : ∃ e ∈ r.entries, e.key = key then .error (.duplicateCommand key)
    else .ok ⟨place ⟨key, command⟩ r.entries,
      pairwise_place r.ordered fun e he same ↦ taken ⟨e, he, same⟩⟩

end Registry

/-- A command with the name under which it is to be registered. -/
structure Attempt where
  /-- The name, in any letter case. -/
  name : String
  /-- The command. -/
  command : Command

namespace Attempt

/-- The lower-case form of the name. -/
def key (a : Attempt) : String :=
  Text.lowerCase a.name

/-- What is said of the attempt when it succeeds. -/
def announcement (a : Attempt) : LogEntry :=
  { level := .debug
    message := "Registered command " ++ a.key ++ " with signature [" ++
      ", ".intercalate (a.command.signature.map Kind.name) ++ "]" }

end Attempt

namespace Registry

/-- Make an attempt: the answer, and the registry from then on. A refusal leaves it as it is. -/
def attempt (r : Registry) (a : Attempt) : Except Failure Unit × Registry :=
  match r.register a.name a.command with
  | .ok s => (.ok (), s)
  | .error e => (.error e, r)

/-- Make the attempts in turn, up to the first that is refused: what is said of them, and the
registry that they lead to. -/
def registerAll (r : Registry) : List Attempt → List LogEntry × Except Failure Registry
  | [] => ([], .ok r)
  | a :: as =>
    match r.attempt a with
    | (.ok (), s) => (s.registerAll as).map (a.announcement :: ·) id
    | (.error e, _) => ([], .error e)

end Registry

end TypedLine
