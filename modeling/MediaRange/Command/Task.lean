import MediaRange.Command.Invocation
import MediaRange.Command.Response
import MediaRange.Host

/-!
# Tasks

A `Task` is a part of a run that may fail. What it has printed and written stays when it fails.
-/

namespace MediaRange

structure Environment where
  home : Option String := none
  configHome : Option String := none
  configPath : Option String := none
  logLevel : Option String := none
  deriving DecidableEq, Repr

inductive OutputMode where
  | text
  | json
  | quiet
  deriving DecidableEq, Repr

/-- What a run is given, apart from its command. -/
structure Context where
  environment : Environment
  globals : GlobalOptions
  deriving DecidableEq, Repr

namespace Context

/-- A quiet run gives no reports, even if JSON is asked for. -/
def mode (context : Context) : OutputMode :=
  if context.globals.quiet then .quiet
  else if context.globals.json then .json
  else .text

def filter (context : Context) : LogFilter :=
  .ofSetting context.environment.logLevel context.globals.verbose

end Context

abbrev Task (m : Type → Type) := ExceptT Failure m

namespace Task

variable {m : Type → Type} [Monad m]

def perform {α : Type} (action : m α) : Task m α := ExceptT.lift action

/-- Does something with files, whose failure is a failure of the task. -/
def attempt {α : Type} (failure : FileError → Failure) (action : m (Except FileError α)) :
    Task m α :=
  ExceptT.mk (do return (← action).mapError failure)

/-- Goes on with a value, or fails. -/
def require {α ε : Type} (failure : ε → Failure) (value : Except ε α) : Task m α :=
  ExceptT.mk (pure (value.mapError failure))

variable [Host m]

def print (text : String) : Task m Unit := perform (Host.print text)

def printError (text : String) : Task m Unit := perform (Host.printError text)

def showLog (context : Context) : List LogRecord → Task m Unit
  | [] => pure ()
  | r :: log => do
    if context.filter.shows r then printError r.line
    showLog context log

def readText (failure : FileError → Failure) (path : Path) : Task m String := do
  let content ← attempt failure (Host.readFile path)
  require failure content.asText

end Task

end MediaRange
