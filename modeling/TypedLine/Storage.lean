import TypedLine.Text.Line
import TypedLine.Text.Utf8

/-!
# Stored files

What a path leads to. The program looks files up through a `Storage`, a function from paths to
**nodes**, so whatever is said about a run holds of every storage. A `FileTree` is one that is
given by the files below a directory: a path is followed from that directory, one component after
the other.
-/

namespace TypedLine

/-- What a path leads to. -/
inductive Node where
  /-- Nothing. -/
  | missing
  /-- A path that goes on behind a file. -/
  | throughFile
  /-- A directory. -/
  | directory
  /-- A path, or a component of it, that is too long. -/
  | tooLong
  /-- A path with a null character. -/
  | unspeakable
  /-- A file that holds a text. -/
  | text (content : String)
  /-- A file that is not the UTF-8 form of any text. -/
  | binary
  deriving DecidableEq, Repr

namespace Node

/-- The file with the given bytes. -/
def ofBytes (bytes : ByteArray) : Node :=
  match String.fromUTF8? bytes with
  | some content => .text content
  | none => .binary

/-- Whether the path leads to a file. -/
def isFile : Node → Bool
  | text _ | binary => true
  | _ => false

/-- The content of a file, or why there is none to read. -/
def read : Node → Except String String
  | missing => .error "No such file or directory (os error 2)"
  | throughFile => .error "Not a directory (os error 20)"
  | directory => .error "Is a directory (os error 21)"
  | tooLong => .error "File name too long (os error 36)"
  | unspeakable => .error "file name contained an unexpected NUL byte"
  | text content => .ok content
  | binary => .error "stream did not contain valid UTF-8"

end Node

/-- What each path leads to. -/
abbrev Storage := String → Node

/-! ### File trees -/

/-- The components of a path: what stands between its slashes. -/
def pathComponents (path : String) : List (List Char) :=
  Text.pieces '/' path.toList

/-- The files below a directory, each with the components of its path. -/
structure FileTree where
  /-- The files. -/
  files : List (List (List Char) × Node)

namespace FileTree

/-- The tree of files that are given with their relative paths. -/
def ofFiles (files : List (String × Node)) : FileTree :=
  ⟨files.map fun f ↦ ((pathComponents f.1).filter fun c ↦ c ≠ [] ∧ c ≠ ['.'], f.2)⟩

/-- The place that a path has come to. -/
inductive Place where
  /-- The directory with the given components below the top. -/
  | inside (components : List (List Char))
  /-- A directory that is not below the top. -/
  | outside
  /-- What is not a directory. -/
  | leaf (node : Node)

/-- The node of a place. -/
def Place.node : Place → Node
  | inside _ | outside => .directory
  | leaf node => node

/-- The greatest length of a component, in bytes. -/
def maxComponent : Nat := 255

/-- The greatest length of a path, in bytes. -/
def maxPath : Nat := 4095

/-- What has the name `name` in the directory `components`. -/
def child (t : FileTree) (components : List (List Char)) (name : List Char) : Place :=
  let full := components ++ [name]
  match t.files.find? (·.1 == full) with
  | some (_, node) => .leaf node
  | none =>
    if t.files.any fun f ↦ full.isPrefixOf f.1 then .inside full else .leaf .missing

/-- Follow one component from a place. Outside the tree every directory has a parent, and no name
leads to anything. -/
def follow (t : FileTree) : Place → List Char → Place
  | .leaf .missing, _ => .leaf .missing
  | .leaf .tooLong, _ => .leaf .tooLong
  | .leaf _, _ => .leaf .throughFile
  | place, [] => place
  | place, ['.'] => place
  | .inside [], ['.', '.'] => .outside
  | .inside components, ['.', '.'] => .inside components.dropLast
  | .outside, ['.', '.'] => .outside
  | place, name =>
    if maxComponent < Text.byteLength name then .leaf .tooLong
    else match place with
      | .inside components => t.child components name
      | _ => .leaf .missing

/-- What a path leads to. A path that begins with a slash is followed from the root directory,
which is outside the tree, and the empty path leads to nothing. -/
def lookup (t : FileTree) : Storage := fun path ↦
  let start : Place := if path.toList.head? = some '/' then .outside else .inside []
  if path.toList.contains '\x00' then .unspeakable
  else if maxPath < path.utf8ByteSize then .tooLong
  else if path.isEmpty then .missing
  else ((pathComponents path).foldl t.follow start).node

end FileTree

end TypedLine
