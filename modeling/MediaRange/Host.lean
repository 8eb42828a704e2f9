import MediaRange.Files.Store

/-!
# Hosts

A `Host` is what a command needs from the system that it runs on: files, an input and two outputs.
A `Session` is a host that is a value, so that a command can be run on it and its effects seen.
-/

namespace MediaRange

class Host (m : Type → Type) where
  readFile : Path → m (Except FileError Content)
  writeFile : Path → String → m (Except FileError Unit)
  contains : Path → m Bool
  isDirectory : Path → m Bool
  makeDirectory : Path → m (Except FileError Unit)
  /-- All that is left of the input. -/
  readInput : m (Except FileError Content)
  print : String → m Unit
  printError : String → m Unit

/-- Files, the input that has not been read yet, and what has been printed so far. -/
structure Session where
  files : FileStore
  input : Content := .text ""
  output : String := ""
  errors : String := ""

namespace Session

def changeFiles (change : FileStore → Except FileError FileStore) :
    StateM Session (Except FileError Unit) := fun session =>
  match change session.files with
  | .ok files => (.ok (), { session with files := files })
  | .error e => (.error e, session)

instance : Host (StateM Session) where
  readFile path := fun session => (session.files.read path, session)
  writeFile path text := changeFiles fun files => files.write path text
  contains path := fun session => (session.files.contains path, session)
  isDirectory path := fun session => (session.files.isDirectory path, session)
  makeDirectory path := changeFiles fun files => files.makeDirectory path
  readInput := fun session => (.ok session.input, { session with input := .text "" })
  print text := fun session => ((), { session with output := session.output ++ text })
  printError text := fun session => ((), { session with errors := session.errors ++ text })

end Session

end MediaRange
