/-
  ServiceRegistry.Scrape.FileSystem

  Files and directories by path. The segments of a path are parted by slashes; a path
  without a slash lies in the working directory, which always exists.
-/
import ServiceRegistry.Text.Segments
import ServiceRegistry.Text.Utf8

namespace ServiceRegistry.Scrape

/-- What a path leads to. -/
inductive Node
  | file (content : List UInt8)
  | directory
  deriving DecidableEq, Repr

/-- Why a file cannot be read or written. -/
inductive FileError
  | notFound
  | isADirectory
  | notADirectory
  /-- The content is no text. -/
  | invalidData
  /-- The name is too long. -/
  | invalidFileName
  deriving DecidableEq, Repr

/-- The name of an error. -/
def FileError.name : FileError → String
  | notFound => "NotFound"
  | isADirectory => "IsADirectory"
  | notADirectory => "NotADirectory"
  | invalidData => "InvalidData"
  | invalidFileName => "InvalidFilename"

/-- Files and directories with their paths. -/
structure FileSystem where
  nodes : List (String × Node) := []
  deriving DecidableEq, Repr

namespace FileSystem

/-- What a path leads to. -/
def get? (fs : FileSystem) (path : String) : Option Node := fs.nodes.lookup path

/-- Sets what a path leads to. A new path comes last. -/
def putNode (path : String) (node : Node) : List (String × Node) → List (String × Node)
  | [] => [(path, node)]
  | (p, n) :: rest => if p = path then (p, node) :: rest else (p, n) :: putNode path node rest

/-- The file system in which a path leads to a node. -/
def put (fs : FileSystem) (path : String) (node : Node) : FileSystem :=
  ⟨putNode path node fs.nodes⟩

theorem lookup_cons_eq (key p : String) (n : Node) (rest : List (String × Node)) :
    ((p, n) :: rest).lookup key = if key = p then some n else rest.lookup key := by
  by_cases h : key = p
  · simp [h]
  · simp [List.lookup_cons, beq_eq_false_iff_ne.2 h, h]

theorem lookup_putNode (path other : String) (node : Node) (nodes : List (String × Node)) :
    (putNode path node nodes).lookup other
      = if other = path then some node else nodes.lookup other := by
  induction nodes with
  | nil => simp [putNode, lookup_cons_eq]
  | cons x rest ih =>
    obtain ⟨p, n⟩ := x
    unfold putNode
    split
    · rename_i hp; simp only [lookup_cons_eq, hp]; split <;> rfl
    · simp only [lookup_cons_eq, ih]; split <;> simp_all

theorem get?_put (fs : FileSystem) (path other : String) (node : Node) :
    (fs.put path node).get? other = if other = path then some node else fs.get? other :=
  lookup_putNode path other node fs.nodes

/-- The directory that holds a path, if it is not the working directory. -/
def parent? (path : String) : Option String := (Text.cutLast? '/' path).map (·.1)

/-- The last segment of a path. -/
def lastName (path : String) : String :=
  match Text.cutLast? '/' path with
  | some (_, name) => name
  | none => path

/-- The greatest length of a name, in bytes. -/
def longestName : Nat := 255

/-- Writes a file; its directory must exist, and its name must not be too long. -/
def write (fs : FileSystem) (path : String) (content : List UInt8) : Except FileError FileSystem :=
  match (parent? path).map fs.get? with
  | some none => .error .notFound
  | some (some (.file _)) => .error .notADirectory
  | _ =>
    if (lastName path).utf8ByteSize > longestName then .error .invalidFileName
    else if fs.get? path = some .directory then .error .isADirectory
    else .ok (fs.put path (.file content))

/-- Reads a file as text. -/
def readText (fs : FileSystem) (path : String) : Except FileError String :=
  match fs.get? path with
  | none => .error .notFound
  | some .directory => .error .isADirectory
  | some (.file content) =>
    match Text.ofUtf8? content with
    | some text => .ok text
    | none => .error .invalidData

/-- The path of a file in a directory. -/
def inside (directory name : String) : String := directory ++ "/" ++ name

/-- The names of what lies in a directory. -/
def names (fs : FileSystem) (directory : String) : List String :=
  fs.nodes.filterMap fun (path, _) =>
    (Text.dropBeginning? (inside directory "") path).filter fun name =>
      !name.toList.contains '/'

/-- The names of what lies in a directory, which must exist. -/
def list (fs : FileSystem) (directory : String) : Except FileError (List String) :=
  match fs.get? directory with
  | none => .error .notFound
  | some (.file _) => .error .notADirectory
  | some .directory => .ok (fs.names directory)

end FileSystem

end ServiceRegistry.Scrape
