/-!
# Paths

A `Path` is kept as it is written, because messages show it so. Its names are what lies between
slashes; empty ones do not count.
-/

namespace MediaRange

structure Path where
  text : String
  deriving DecidableEq, Repr

namespace Path

/-- The parts of a text between slashes that are not empty. -/
def splitNames : List Char → List String
  | text => go [] text
where
  /-- Continues after the last characters of a name, which are kept last first. -/
  go (name : List Char) : List Char → List String
    | [] => if name.isEmpty then [] else [String.ofList name.reverse]
    | c :: rest =>
      if c = '/' then
        if name.isEmpty then go [] rest else String.ofList name.reverse :: go [] rest
      else go (c :: name) rest

def names (path : Path) : List String := splitNames path.text.toList

def isAbsolute (path : Path) : Bool := path.text.toList.head? = some '/'

/-- Whether the path can only be that of a directory. -/
def endsWithSlash (path : Path) : Bool := path.text.toList.getLast? = some '/'

def ofNames (absolute : Bool) (names : List String) : Path :=
  ⟨(if absolute then "/" else "") ++ String.intercalate "/" names⟩

def join (path : Path) (name : String) : Path :=
  ⟨if path.endsWithSlash || path.text.isEmpty then path.text ++ name else path.text ++ "/" ++ name⟩

/-- The names of the directories above, innermost first. A name `.` stands for nothing. -/
def outerNames (path : Path) : List String := (path.names.filter (· ≠ ".")).reverse.drop 1

end Path

end MediaRange
