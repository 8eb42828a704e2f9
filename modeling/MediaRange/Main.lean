import MediaRange.Command.Arguments
import MediaRange.Command.Run

/-!
# The program

The command line program: the system as a `Host`, and the run of its arguments.
-/

namespace MediaRange

namespace SystemHost

/-- The text of an error of the system, with its number. -/
def numbered (code : UInt32) (details : String) : FileError :=
  match code with
  | 2 => .notFound
  | 17 => .alreadyExists
  | 20 => .notDirectory
  | 21 => .isDirectory
  | 36 => .nameTooLong
  | code => .other s!"{details} (os error {code})"

def fileError : IO.Error → FileError
  | .alreadyExists _ code details | .noFileOrDirectory _ code details
  | .permissionDenied _ code details | .inappropriateType _ code details
  | .invalidArgument _ code details | .resourceExhausted _ code details
  | .noSuchThing _ code details | .otherError code details => numbered code details
  | e => .other (toString e)

/-- Does something, with its failure as a value. -/
def attempt {α : Type} (action : IO α) : IO (Except FileError α) := do
  match ← action.toBaseIO with
  | .ok value => return .ok value
  | .error e => return .error (fileError e)

def content (bytes : ByteArray) : Content :=
  match String.fromUTF8? bytes with
  | some text => .text text
  | none => .raw bytes.toList

/-- Whether something can be found at a path, even if it may not be read. -/
def contains (path : String) : IO Bool := do
  match ← (IO.FS.Handle.mk path .read).toBaseIO with
  | .ok _ | .error (.permissionDenied ..) => return true
  | .error _ => return false

/-- The bytes up to the end of the input. -/
partial def readAll (stream : IO.FS.Stream) (before : ByteArray) : IO ByteArray := do
  let bytes ← stream.read 65536
  if bytes.isEmpty then return before else readAll stream (before ++ bytes)

instance : Host IO where
  readFile path := attempt (return content (← IO.FS.readBinFile path.text))
  writeFile path text := attempt (IO.FS.writeFile path.text text)
  contains path := contains path.text
  isDirectory path := contains (path.text ++ "/.")
  makeDirectory path := attempt (IO.FS.createDir path.text)
  readInput := attempt (return content (← readAll (← IO.getStdin) .empty))
  print text := do (← IO.getStdout).putStr text
  printError text := do (← IO.getStderr).putStr text

/-- The home is the one that is set; it is not looked up among the accounts of the system. -/
def environment : IO Environment := do
  return {
    home := (← IO.getEnv "HOME").filter fun home => !home.isEmpty
    configHome := ← IO.getEnv "XDG_CONFIG_HOME"
    configPath := ← IO.getEnv "MEDIA_MINMAX_CONFIG"
    logLevel := ← IO.getEnv "RUST_LOG" }

end SystemHost

end MediaRange

open MediaRange in
def main (arguments : List String) : IO UInt32 := do
  match Arguments.read arguments with
  | .ok invocation =>
    let code ← invocation.run (← SystemHost.environment)
    return UInt32.ofNat code
  | .error e =>
    let line := e.message ++ "\n"
    if e.code = 0 then Host.print line else Host.printError line
    return UInt32.ofNat e.code
