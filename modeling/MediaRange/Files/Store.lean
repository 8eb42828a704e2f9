import MediaRange.Files.Path

/-!
# File stores

A `FileStore` holds files and directories. A path is followed name by name from the root or from
the current directory, and each directory on the way must exist. There are no links, so two paths
lead to one file only if they are different ways to write its location.
-/

namespace MediaRange

/-- What a file holds: a text, or bytes that are no text. -/
inductive Content where
  | text (text : String)
  | raw (bytes : List UInt8)
  deriving DecidableEq

/-- Why an operation on a file fails. -/
inductive FileError where
  | notFound
  | alreadyExists
  | notDirectory
  | isDirectory
  | nameTooLong
  | notText
  | other (message : String)
  deriving DecidableEq, Repr

def FileError.message : FileError → String
  | notFound => "No such file or directory (os error 2)"
  | alreadyExists => "File exists (os error 17)"
  | notDirectory => "Not a directory (os error 20)"
  | isDirectory => "Is a directory (os error 21)"
  | nameTooLong => "File name too long (os error 36)"
  | notText => "stream did not contain valid UTF-8"
  | other message => message

def Content.asText : Content → Except FileError String
  | text written => .ok written
  | raw _ => .error .notText

/-- The names on the way from the root. -/
abbrev Location := List String

inductive Node where
  | directory
  | file (content : Content)
  deriving DecidableEq

/-- Files and directories, and the directory that relative paths start from. -/
structure FileStore where
  current : Location
  nodes : List (Location × Node)
  deriving DecidableEq

namespace FileStore

/-- What is at a location. The root is always a directory. -/
def node? (store : FileStore) (location : Location) : Option Node :=
  if location = [] then some .directory
  else (store.nodes.find? fun entry => entry.1 = location).map Prod.snd

def putNode (location : Location) (node : Node) :
    List (Location × Node) → List (Location × Node)
  | [] => [(location, node)]
  | entry :: nodes =>
    if entry.1 = location then (location, node) :: nodes
    else entry :: putNode location node nodes

def put (store : FileStore) (location : Location) (node : Node) : FileStore :=
  { store with nodes := putNode location node store.nodes }

theorem find?_putNode (location other : Location) (node : Node) (nodes : List (Location × Node)) :
    (putNode location node nodes).find? (fun entry => entry.1 = other) =
      if other = location then some (location, node)
      else nodes.find? fun entry => entry.1 = other := by
  induction nodes with
  | nil =>
    by_cases same : other = location
    · simp [putNode, same]
    · simp [putNode, same, Ne.symm same]
  | cons entry nodes ih =>
    by_cases here : entry.1 = location
    · by_cases same : other = location
      · simp [putNode, here, same]
      · simp [putNode, here, same, Ne.symm same]
    · by_cases same : other = location
      · subst same
        simp [putNode, here, ih]
      · by_cases first : entry.1 = other <;> simp [putNode, here, ih, same, first]

/-- After a node is put, its location holds it and all others are as before. -/
theorem node?_put (store : FileStore) (location other : Location) (node : Node)
    (inside : location ≠ []) :
    (store.put location node).node? other =
      if other = location then some node else store.node? other := by
  by_cases root : other = []
  · subst root
    simp [node?, Ne.symm inside]
  · by_cases same : other = location <;> simp [node?, put, find?_putNode, root, same, inside]

/-- The longest name, in bytes. -/
def nameLimit : Nat := 255

/-- One step of a path from a location, which must be a directory. -/
def enter (store : FileStore) (location : Location) (name : String) : Except FileError Location :=
  match store.node? location with
  | none => .error .notFound
  | some (.file _) => .error .notDirectory
  | some .directory =>
    if name = "." then .ok location
    else if name = ".." then .ok location.dropLast
    else if nameLimit < name.utf8ByteSize then .error .nameTooLong
    else .ok (location ++ [name])

/-- Where a path leads. Nothing needs to be there yet. -/
def locate (store : FileStore) (path : Path) : Except FileError Location :=
  if path.text.isEmpty then .error .notFound
  else path.names.foldlM store.enter (if path.isAbsolute then [] else store.current)

def lookup (store : FileStore) (path : Path) : Except FileError Node := do
  match store.node? (← store.locate path) with
  | none => .error .notFound
  | some .directory => .ok .directory
  | some (.file content) =>
    if path.endsWithSlash then .error .notDirectory else .ok (.file content)

def contains (store : FileStore) (path : Path) : Bool := (store.lookup path).isOk

def isDirectory (store : FileStore) (path : Path) : Bool :=
  match store.lookup path with
  | .ok .directory => true
  | _ => false

def read (store : FileStore) (path : Path) : Except FileError Content := do
  match ← store.lookup path with
  | .directory => .error .isDirectory
  | .file content => .ok content

/-- The store after writing a text to a file, which is made if it is not there. -/
def write (store : FileStore) (path : Path) (text : String) : Except FileError FileStore := do
  let location ← store.locate path
  if path.endsWithSlash || store.node? location = some .directory then .error .isDirectory
  else .ok (store.put location (.file (.text text)))

/-- The store after making one directory. -/
def makeDirectory (store : FileStore) (path : Path) : Except FileError FileStore := do
  let location ← store.locate path
  match store.node? location with
  | some _ => .error .alreadyExists
  | none => .ok (store.put location .directory)

end FileStore

end MediaRange
