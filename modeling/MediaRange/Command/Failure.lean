import MediaRange.Config.Verification
import MediaRange.Files.Store

/-!
# Failures of commands

A `Failure` tells why a run did not succeed. Its kind gives the exit code, and its message is what
the user reads.
-/

namespace MediaRange

inductive FailureKind where
  | general
  | check
  | arguments
  | configuration
  | files
  deriving DecidableEq, Repr

def FailureKind.code : FailureKind → Nat
  | general => 1
  | check => 2
  | arguments => 3
  | configuration => 4
  | files => 5

/-- Where a stylesheet comes from. -/
inductive Source where
  | input
  | file (path : Path)
  deriving DecidableEq, Repr

namespace Source

/-- The sources that operands stand for: a dash is the input, and so are no operands at all. -/
def ofOperands (paths : List Path) : List Source :=
  if paths.isEmpty then [input]
  else paths.map fun path => if path.text = "-" then input else file path

def name : Source → String
  | input => "-"
  | file path => path.text

def description : Source → String
  | input => "stdin"
  | file path => path.text

end Source

inductive Failure where
  | configDirectoryUnknown (loading : Bool)
  | configMissing (path : Path)
  | configUnreadable (path : Path) (cause : FileError)
  | configInvalid (path : Path) (cause : ConfigError)
  | configUnverifiable (cause : VerificationError)
  | configUnreadableToVerify (path : Path) (cause : FileError)
  | configExists (path : Path)
  | directoriesNotMade (cause : FileError)
  | configUnwritable (path : Path) (cause : FileError)
  | verificationFailed
  | settings (fromArguments : Bool) (cause : SettingsError)
  | inputInPlace
  | severalInputs
  | sourceUnreadable (source : Source) (cause : FileError)
  | outputUnwritable (path : Path) (cause : FileError)
  | rangesFound (files : Nat) (report : Option Json)

namespace Failure

/-- That there is no directory for the configuration is a failure of the configuration only where
it is to be loaded. -/
def kind : Failure → FailureKind
  | configDirectoryUnknown loading => if loading then .configuration else .general
  | directoriesNotMade _ | configUnwritable .. => .general
  | rangesFound .. => .check
  | inputInPlace | severalInputs => .arguments
  | settings fromArguments _ => if fromArguments then .arguments else .configuration
  | sourceUnreadable .. | outputUnwritable .. => .files
  | _ => .configuration

def message : Failure → String
  | configDirectoryUnknown _ => "Could not find config directory"
  | configMissing path => s!"config file not found: {path.text}"
  | configUnreadable path cause => s!"Failed to read config file: {path.text}: {cause.message}"
  | configInvalid path cause =>
    s!"Failed to parse config file: {path.text}: {cause.message .plain}"
  | configUnverifiable cause => cause.message
  | configUnreadableToVerify path cause =>
    s!"failed to read config file: {path.text}: {cause.message}"
  | configExists path => s!"config file already exists: {path.text} (use --force to overwrite)"
  | directoriesNotMade cause => cause.message
  | configUnwritable path cause => s!"Failed to write config file: {path.text}: {cause.message}"
  | verificationFailed => "configuration validation failed"
  | settings _ cause => cause.message
  | inputInPlace => "--in-place cannot be used with stdin"
  | severalInputs => "--output accepts a single input"
  | sourceUnreadable source cause => s!"failed to read {source.description}: {cause.message}"
  | outputUnwritable path cause => s!"failed to write {path.text}: {cause.message}"
  | rangesFound files _ => s!"{files} file(s) contain media range syntax"

def report? : Failure → Option Json
  | rangesFound _ report => report
  | _ => none

end Failure

end MediaRange
