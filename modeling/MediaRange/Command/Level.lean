/-!
# Levels of the command line

The arguments of a run are read level by level: first those of the program, then those of a command
and of its own commands. A `Level` tells which options and commands may stand at it.
-/

namespace MediaRange

inductive Switch where
  | help
  | version
  | json
  | quiet
  | verbose
  | inPlace
  | check
  | useCalc
  | noCalc
  | force
  deriving DecidableEq, Repr

namespace Switch

def long : Switch → String
  | help => "help"
  | version => "version"
  | json => "json"
  | quiet => "quiet"
  | verbose => "verbose"
  | inPlace => "in-place"
  | check => "check"
  | useCalc => "use-calc"
  | noCalc => "no-calc"
  | force => "force"

def short? : Switch → Option Char
  | help => some 'h'
  | version => some 'V'
  | json => some 'j'
  | quiet => some 'q'
  | verbose => some 'v'
  | force => some 'f'
  | inPlace | check | useCalc | noCalc => none

end Switch

inductive Setting where
  | config
  | output
  | customValue
  deriving DecidableEq, Repr

namespace Setting

def long : Setting → String
  | config => "config"
  | output => "output"
  | customValue => "custom-value"

def short? : Setting → Option Char
  | output => some 'o'
  | config | customValue => none

/-- Whether the value is a path, which may not be empty. -/
def isPath : Setting → Bool
  | config | output => true
  | customValue => false

end Setting

inductive NamedOption where
  | switch (switch : Switch)
  | setting (setting : Setting)
  deriving DecidableEq, Repr

namespace NamedOption

def long : NamedOption → String
  | switch s => s.long
  | setting s => s.long

def short? : NamedOption → Option Char
  | switch s => s.short?
  | setting s => s.short?

end NamedOption

inductive Level where
  | program
  | transform
  | query
  | completions
  | config
  | configCurrent
  | configLocation
  | configSample
  | configCreate
  | configVerify
  deriving DecidableEq, Repr

namespace Level

/-- The commands that may follow, by their names. -/
def commands : Level → List (String × Level)
  | program =>
    [("transform", transform), ("query", query), ("config", config), ("completions", completions)]
  | config =>
    [("show", configCurrent), ("path", configLocation), ("default", configSample),
      ("init", configCreate), ("verify", configVerify)]
  | _ => []

def command? (level : Level) (name : String) : Option Level :=
  (level.commands.find? fun entry => entry.1 = name).map Prod.snd

/-- The command that tells how a level is used; it is there where other commands are. -/
def helpCommand : String := "help"

def hasCommands (level : Level) : Bool := !level.commands.isEmpty

def isCommand (level : Level) (name : String) : Bool :=
  level.hasCommands && (name = helpCommand || (level.command? name).isSome)

def ownSwitches : Level → List Switch
  | program => [.version]
  | transform => [.inPlace, .check, .useCalc, .noCalc]
  | query => [.useCalc, .noCalc]
  | configCreate => [.force]
  | _ => []

def ownSettings : Level → List Setting
  | transform => [.output, .customValue]
  | query => [.customValue]
  | _ => []

/-- All options of a level. Some can be given anywhere. -/
def options (level : Level) : List NamedOption :=
  (Switch.help :: .json :: .quiet :: .verbose :: level.ownSwitches).map .switch ++
    (Setting.config :: level.ownSettings).map .setting

def long? (level : Level) (name : List Char) : Option NamedOption :=
  level.options.find? fun option => option.long.toList = name

def short? (level : Level) (name : Char) : Option NamedOption :=
  level.options.find? fun option => option.short? = some name

/-- Whether another operand may follow the given number of them. -/
def takesOperand (level : Level) (before : Nat) : Bool :=
  match level with
  | transform => true
  | query | completions => before = 0
  | _ => false

def needsOperand : Level → Bool
  | query | completions => true
  | _ => false

def switchConflicts : Level → List (Switch × Switch)
  | transform => [(.inPlace, .check), (.useCalc, .noCalc)]
  | query => [(.useCalc, .noCalc)]
  | _ => []

def settingConflicts : Level → List (Setting × Switch)
  | transform => [(.output, .inPlace), (.output, .check)]
  | _ => []

end Level

end MediaRange
