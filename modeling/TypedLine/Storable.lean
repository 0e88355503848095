import TypedLine.Command
import TypedLine.Config

/-!
# What is stored

Kinds, statuses, values, replies and configurations can be stored. For that their types are taken
as they are declared: a closed set of names; a closed set of names with something of a primitive
type under each; or a **record**, whose fields have names. The primitive types are those of the
kinds of values. How any of it is written down is not said here.
-/

namespace TypedLine

/-- What a part of something stored may be. -/
inductive Shape where
  /-- Something of a primitive type. -/
  | scalar (k : Kind)
  /-- Something of a primitive type, or nothing. -/
  | optional (k : Kind)
  /-- One of several names. -/
  | names (names : List String)
  /-- One of several names, and something of the primitive type that goes with it. -/
  | tagged (cases : List (String × Kind))
  deriving DecidableEq, Repr

/-- A part of something stored. -/
inductive Part where
  | scalar (v : Value)
  | null
  | name (name : String)
  | tagged (name : String) (v : Value)
  deriving DecidableEq, Repr

/-- How a type is declared. -/
inductive Schema where
  /-- It has a single part. -/
  | part (shape : Shape)
  /-- It is a record of several parts. -/
  | record (fields : List (String × Shape))
  deriving DecidableEq, Repr

/-- What something stored consists of. The fields of a record stand in the order of their
declaration. -/
inductive Content where
  | part (p : Part)
  | record (data : List (String × Part))
  deriving DecidableEq, Repr

/-- Types that can be stored. -/
class Storable (α : Type) where
  /-- How the type is declared. -/
  schema : Schema
  /-- What something of the type consists of. -/
  content : α → Content
  /-- Put something of the type together. -/
  ofContent? : Content → Option α
  /-- What is taken apart is put together again. -/
  ofContent?_content (a : α) : ofContent? (content a) = some a

/-! ### Closed sets of names -/

/-- Every kind. -/
def Kind.all : List Kind :=
  [.string, .boolean, .int32, .int64, .single, .double]

/-- The kind with the given name. -/
def Kind.ofName? (name : String) : Option Kind :=
  Kind.all.find? (·.name == name)

theorem Kind.ofName?_name (k : Kind) : Kind.ofName? k.name = some k := by
  cases k <;> decide

instance : Storable Kind where
  schema := .part (.names (Kind.all.map Kind.name))
  content k := .part (.name k.name)
  ofContent?
    | .part (.name name) => Kind.ofName? name
    | _ => none
  ofContent?_content := Kind.ofName?_name

/-- Every status. -/
def Status.all : List Status :=
  [.success, .unparseable, .fail, .warning]

/-- The name under which a status is stored. -/
def Status.storedName : Status → String
  | .success => "Success"
  | .unparseable => "Unparseable"
  | .fail => "Fail"
  | .warning => "Warning"

/-- The status with the given stored name. -/
def Status.ofStoredName? (name : String) : Option Status :=
  Status.all.find? (·.storedName == name)

theorem Status.ofStoredName?_storedName (s : Status) :
    Status.ofStoredName? s.storedName = some s := by
  cases s <;> decide

instance : Storable Status where
  schema := .part (.names (Status.all.map Status.storedName))
  content s := .part (.name s.storedName)
  ofContent?
    | .part (.name name) => Status.ofStoredName? name
    | _ => none
  ofContent?_content := Status.ofStoredName?_storedName

/-! ### Values -/

instance : Storable Value where
  schema := .part (.tagged (Kind.all.map fun k ↦ (k.name, k)))
  content v := .part (.tagged v.kind.name v)
  ofContent?
    | .part (.tagged _ v) => some v
    | _ => none
  ofContent?_content _ := rfl

/-! ### Replies and configurations -/

instance : Storable Reply where
  schema := .record
    [("text", .scalar .string), ("status", .names (Status.all.map Status.storedName))]
  content r := .record
    [("text", .scalar (.string r.text)), ("status", .name r.status.storedName)]
  ofContent?
    | .record [(_, .scalar (.string text)), (_, .name status)] =>
      (Status.ofStoredName? status).map fun status ↦ ⟨text, status⟩
    | _ => none
  ofContent?_content r := by
    simp only [Status.ofStoredName?_storedName, Option.map_some]

/-- The path of a script, or nothing. -/
def Config.pathPart (path : Option String) : Part :=
  (path.map fun path ↦ .scalar (.string path)).getD .null

/-- The path of a script that a part holds. -/
def Config.ofPathPart? : Part → Option (Option String)
  | .null => some none
  | .scalar (.string path) => some (some path)
  | _ => none

instance : Storable Config where
  schema := .record
    [("keep_going", .scalar .boolean), ("script_path", .optional .string),
      ("comment_prefix", .scalar .string)]
  content c := .record
    [("keep_going", .scalar (.boolean c.keepGoing)), ("script_path", Config.pathPart c.scriptPath),
      ("comment_prefix", .scalar (.string c.commentPrefix))]
  ofContent?
    | .record [(_, .scalar (.boolean keepGoing)), (_, path),
        (_, .scalar (.string commentPrefix))] =>
      (Config.ofPathPart? path).map fun path ↦ ⟨keepGoing, path, commentPrefix⟩
    | _ => none
  ofContent?_content c := by
    rcases c with ⟨keepGoing, - | path, commentPrefix⟩
    · rfl
    · rfl

end TypedLine
