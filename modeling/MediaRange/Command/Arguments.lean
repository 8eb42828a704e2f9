import MediaRange.Command.Invocation
import MediaRange.Command.Level

/-!
# Reading arguments

`Arguments.read` reads the arguments of a run from left to right. What is read at a level waits
until the next option or the end of the level, and only then is looked at; so of two errors the one
in a later argument can come first. The innermost level is checked before those around it.
-/

namespace MediaRange

/-- Why arguments do not give an invocation. Asking for help or for the version is among the
reasons. -/
inductive UsageError where
  | help
  | version
  | nothingGiven
  | missingCommand
  | unknownCommand
  | unknownArgument
  | missingArgument
  | conflict
  | invalidValue
  | unwantedValue
  deriving DecidableEq, Repr

def versionText : String := "media-minmax 0.1.0"

namespace UsageError

/-- The exit code of a run that ends with its arguments. Help and the version are no failures. -/
def code : UsageError → Nat
  | help | version => 0
  | _ => 2

def message : UsageError → String
  | help => "usage: media-minmax [options] (transform | query | config | completions) ..."
  | version => versionText
  | nothingGiven | missingCommand => "a command is missing"
  | unknownCommand => "there is no such command"
  | unknownArgument => "there is no such option, or too many operands are given"
  | missingArgument => "an operand is missing"
  | conflict => "options are given that exclude each other, or one is given twice"
  | invalidValue => "a value is missing or not allowed"
  | unwantedValue => "a value is given to an option that has none"

end UsageError

/-- What has been read and not been looked at yet. -/
inductive Waiting where
  | nothing
  | setting (setting : Setting) (value : Option String)
  | operands (texts : List String)
  deriving DecidableEq, Repr

structure Arguments where
  level : Level
  switches : List Switch := []
  settings : List (Setting × String) := []
  operands : List String := []
  waiting : Waiting := .nothing
  deriving DecidableEq, Repr

namespace Arguments

def wantsValue (a : Arguments) : Bool :=
  match a.waiting with
  | .setting _ none => true
  | _ => false

def addSetting (a : Arguments) (s : Setting) (value : String) : Except UsageError Arguments :=
  if a.settings.any fun entry => entry.1 = s then .error .conflict
  else if s.isPath && value.isEmpty then .error .invalidValue
  else .ok { a with settings := a.settings ++ [(s, value)] }

def acceptsOperand (level : Level) (text : String) : Bool :=
  match level with
  | .transform => !text.isEmpty
  | .completions => (Shell.named? text).isSome
  | _ => true

def settle (a : Arguments) : Except UsageError Arguments :=
  let settled := { a with waiting := .nothing }
  match a.waiting with
  | .nothing => .ok a
  | .setting _ none => .error .invalidValue
  | .setting s (some value) => settled.addSetting s value
  | .operands texts =>
    if texts.all (acceptsOperand a.level) then
      .ok { settled with operands := a.operands ++ texts }
    else .error .invalidValue

/-- Adds a switch, which can be given once. Help and the version are shown at once. -/
def addSwitch (a : Arguments) (s : Switch) : Except UsageError Arguments := do
  let a ← a.settle
  match s with
  | .help => .error .help
  | .version => .error .version
  | s => if s ∈ a.switches then .error .conflict else .ok { a with switches := a.switches ++ [s] }

def addValue (a : Arguments) (s : Setting) (value : List Char) : Except UsageError Arguments := do
  (← a.settle).addSetting s (String.ofList value)

def awaitValue (a : Arguments) (s : Setting) : Except UsageError Arguments := do
  return { ← a.settle with waiting := .setting s none }

def addOperand (a : Arguments) (text : String) : Except UsageError Arguments :=
  match a.waiting with
  | .operands texts =>
    if a.level.takesOperand (a.operands.length + texts.length) then
      .ok { a with waiting := .operands (texts ++ [text]) }
    else .error .unknownArgument
  | _ =>
    if a.level.takesOperand a.operands.length then do
      return { ← a.settle with waiting := .operands [text] }
    else if a.level.hasCommands then .error .unknownCommand
    else .error .unknownArgument

/-- An argument after `--`. The name of a command has no business there. -/
def addTrailing (a : Arguments) (text : String) : Except UsageError Arguments :=
  if a.level.isCommand text then .error .unknownArgument else a.addOperand text

/-- An option with a long name, and its value after `=`. -/
def addLong (a : Arguments) (text : List Char) : Except UsageError Arguments :=
  let name := text.takeWhile (· ≠ '=')
  match a.level.long? name, text.dropWhile (· ≠ '=') with
  | none, _ => .error .unknownArgument
  | some (.switch s), [] => a.addSwitch s
  | some (.switch _), _ => .error .unwantedValue
  | some (.setting s), [] => a.awaitValue s
  | some (.setting s), _ :: value => a.addValue s value

/-- Options with short names after one dash. What follows the name of a setting is its value. -/
def addShort (a : Arguments) : List Char → Except UsageError Arguments
  | [] => .ok a
  | c :: rest =>
    match a.level.short? c with
    | none => .error .unknownArgument
    | some (.switch s) => do (← a.addSwitch s).addShort rest
    | some (.setting s) =>
      match rest with
      | [] => a.awaitValue s
      | '=' :: value => a.addValue s value
      | value => a.addValue s value

/-- Adds an argument that is not the name of a command. A lone dash is no option. -/
def add (a : Arguments) (text : String) : Except UsageError Arguments :=
  match text.toList with
  | '-' :: '-' :: name => a.addLong name
  | '-' :: c :: names => a.addShort (c :: names)
  | _ =>
    match a.waiting with
    | .setting s none => .ok { a with waiting := .setting s (some text) }
    | _ => a.addOperand text

/-- Checks the arguments of a level as a whole. -/
def validate (a : Arguments) (hasCommand : Bool) : Except UsageError Arguments :=
  if a.level.hasCommands && !hasCommand then
    .error (if a.switches.isEmpty && a.settings.isEmpty then .nothingGiven else .missingCommand)
  else if (a.level.switchConflicts.any fun (s, t) => s ∈ a.switches && t ∈ a.switches) ||
      a.level.settingConflicts.any fun (s, t) =>
        (a.settings.any fun entry => entry.1 = s) && t ∈ a.switches then .error .conflict
  else if a.level.needsOperand && a.operands.isEmpty then .error .missingArgument
  else .ok a

def finish (a : Arguments) (hasCommand : Bool) : Except UsageError Arguments := do
  (← a.settle).validate hasCommand

/-- What the help command does: it looks for the command that help is wanted for. -/
def helpFor (level : Level) : List String → UsageError
  | [] => .help
  | name :: names =>
    match level.command? name with
    | some inner => helpFor inner names
    | none =>
      if level.hasCommands && name = Level.helpCommand && names.isEmpty then .help
      else .unknownCommand

/-- The levels of the arguments, innermost first. `outer` are the levels around the one at hand,
and after `--` all arguments are operands. -/
def readLevels (outer : List Arguments) (here : Arguments) (trailing : Bool) :
    List String → Except UsageError (List Arguments)
  | [] => do
    let inner ← here.finish false
    return inner :: (← outer.mapM fun a => a.finish true)
  | text :: rest =>
    if trailing then do readLevels outer (← here.addTrailing text) true rest
    else if !here.wantsValue && here.level.isCommand text then
      match here.level.command? text with
      | some level => readLevels (here :: outer) { level := level } false rest
      | none => .error (helpFor here.level rest)
    else if text = "--" then readLevels outer here true rest
    else do readLevels outer (← here.add text) false rest

def setting? (a : Arguments) (s : Setting) : Option String :=
  (a.settings.find? fun entry => entry.1 = s).map Prod.snd

def rewriteOptions (a : Arguments) : RewriteOptions :=
  ⟨a.setting? .customValue, .useCalc ∈ a.switches, .noCalc ∈ a.switches⟩

def command? (a : Arguments) : Option Command :=
  match a.level with
  | .program | .config => none
  | .transform => some <| .transform
    { files := a.operands.map Path.mk
      output := (a.setting? .output).map Path.mk
      inPlace := .inPlace ∈ a.switches
      check := .check ∈ a.switches
      rewrite := a.rewriteOptions }
  | .query => a.operands.head?.map fun params => .query params a.rewriteOptions
  | .completions => (a.operands.head?.bind Shell.named?).map .completions
  | .configCurrent => some (.config .current)
  | .configLocation => some (.config .location)
  | .configSample => some (.config .sample)
  | .configCreate => some (.config (.create (.force ∈ a.switches)))
  | .configVerify => some (.config .verify)

/-- The options of all commands. They count at every level; of two values the inner one does. -/
def globals (levels : List Arguments) : GlobalOptions :=
  let given (s : Switch) : Bool := levels.any fun a => s ∈ a.switches
  { config := (levels.findSome? fun a => a.setting? .config).map Path.mk
    json := given .json
    quiet := given .quiet
    verbose := given .verbose }

def read (texts : List String) : Except UsageError Invocation := do
  let levels ← readLevels [] { level := .program } false texts
  match levels.head?.bind command? with
  | some command => return ⟨globals levels, command⟩
  | none => .error .missingCommand

end Arguments

end MediaRange
