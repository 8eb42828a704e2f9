import MediaRange.Command.Task

/-!
# The configuration file

Where the configuration file is, and the commands that show, create and verify it. A file that the
user has named must exist; the default one need not.
-/

namespace MediaRange

/-- The place of the configuration file, and whether the user has named it. -/
structure ConfigPlace where
  path : Path
  explicit : Bool
  deriving DecidableEq, Repr

/-- The directory for configurations: the one that is set, if it is absolute, and else one in the
home. -/
def Environment.configDirectory? (environment : Environment) : Option Path :=
  match environment.configHome.filter fun directory => (Path.mk directory).isAbsolute with
  | some directory => some ⟨directory⟩
  | none => environment.home.map fun home => (⟨home⟩ : Path).join ".config"

/-- The option comes first, then the environment, then the default place. -/
def Context.configPlace? (context : Context) : Option ConfigPlace :=
  let default := context.environment.configDirectory?.map fun directory =>
    ⟨(directory.join "media-minmax").join "config.json", false⟩
  match context.globals.config, context.environment.configPath with
  | some path, _ => some ⟨path, true⟩
  | none, some path => if path.isEmpty then default else some ⟨⟨path⟩, true⟩
  | none, none => default

namespace Task

variable {m : Type → Type} [Monad m] [Host m]

def locateConfig (context : Context) (loading : Bool) : Task m ConfigPlace :=
  require (fun () => .configDirectoryUnknown loading)
    (context.configPlace?.elim (.error ()) .ok)

def loadConfig (context : Context) : Task m Config := do
  let ⟨path, explicit⟩ ← locateConfig context true
  if ← perform (Host.contains path) then
    let text ← readText (.configUnreadable path) path
    require (.configInvalid path) (Config.read text.toList)
  else if explicit then throw (.configMissing path)
  else
    showLog context [⟨.debug, .configuration, s!"no config at {path.text}, using defaults"⟩]
    return {}

/-- Makes the directory with the given names, innermost first, and those above it. -/
def makeDirectories (absolute : Bool) : List String → m (Except FileError Unit)
  | [] => pure (.ok ())
  | name :: outer => do
    let path := Path.ofNames absolute (name :: outer).reverse
    let settle (result : Except FileError Unit) : m (Except FileError Unit) := do
      match result with
      | .ok () => return .ok ()
      | .error cause => return if ← Host.isDirectory path then .ok () else .error cause
    match ← Host.makeDirectory path with
    | .error .notFound =>
      match ← makeDirectories absolute outer with
      | .ok () => settle (← Host.makeDirectory path)
      | .error cause => return .error cause
    | result => settle result

/-- Writes a configuration file, and makes the directories that it needs. -/
def saveConfig (config : Config) (path : Path) : Task m Unit := do
  attempt .directoriesNotMade (makeDirectories path.isAbsolute path.outerNames)
  attempt (.configUnwritable path) (Host.writeFile path (config.text ++ "\n"))

/-- Creates the configuration file from the sample. -/
def createConfig (context : Context) (force : Bool) : Task m Unit := do
  let path := (← locateConfig context false).path
  if (← perform (Host.contains path)) && !force then throw (.configExists path)
  saveConfig Config.sample path
  if context.mode ≠ .quiet then print s!"Wrote {path.text}\n"

def verifyFile (path : Path) : Task m (List String) := do
  if !(← perform (Host.contains path)) then throw (.configMissing path)
  let text ← readText (.configUnreadableToVerify path) path
  let problems ← require .configUnverifiable (Config.problems text.toList)
  return problems.map ConfigProblem.message

def problemText (path : Path) (problems : List String) : String :=
  s!"✗ Configuration has {problems.length} error(s): {path.text}\n\n" ++
    String.join (problems.map fun problem => s!"  - {problem}\n")

/-- Verifies the configuration file; problems make the run fail. -/
def verifyConfig (context : Context) : Task m Unit := do
  let path := (← locateConfig context false).path
  let problems ← verifyFile path
  match context.mode with
  | .json => print (Response.result (verifyJson path problems)).line
  | mode =>
    if !problems.isEmpty then print (problemText path problems)
    else if mode ≠ .quiet then print s!"✓ Configuration is valid: {path.text}\n"
  if !problems.isEmpty then throw .verificationFailed

def runConfig (context : Context) : ConfigCommand → Task m Unit
  | .current => do print ((← loadConfig context).text ++ "\n")
  | .location => do print ((← locateConfig context false).path.text ++ "\n")
  | .sample => print (Config.sample.text ++ "\n")
  | .create force => createConfig context force
  | .verify => verifyConfig context

end Task

end MediaRange
