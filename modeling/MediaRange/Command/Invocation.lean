import MediaRange.Files.Path

/-!
# Invocations

What the program is asked to do: one command, and options that all commands have.
-/

namespace MediaRange

structure GlobalOptions where
  config : Option Path := none
  json : Bool := false
  quiet : Bool := false
  verbose : Bool := false
  deriving DecidableEq, Repr

/-- Options that override the configuration for one run. -/
structure RewriteOptions where
  customValue : Option String := none
  useCalc : Bool := false
  noCalc : Bool := false
  deriving DecidableEq, Repr

/-- The options of `transform`. Without files the input is rewritten. -/
structure TransformOptions where
  files : List Path := []
  output : Option Path := none
  inPlace : Bool := false
  check : Bool := false
  rewrite : RewriteOptions := {}
  deriving DecidableEq, Repr

/-- What can be done with the configuration file: to show what it says, where it is, or a sample
of one, to create it from the sample, and to verify it. -/
inductive ConfigCommand where
  | current
  | location
  | sample
  | create (force : Bool)
  | verify
  deriving DecidableEq, Repr

inductive Shell where
  | bash
  | elvish
  | fish
  | powershell
  | zsh
  deriving DecidableEq, Repr

namespace Shell

def all : List Shell := [bash, elvish, fish, powershell, zsh]

def name : Shell → String
  | bash => "bash"
  | elvish => "elvish"
  | fish => "fish"
  | powershell => "powershell"
  | zsh => "zsh"

def named? (name : String) : Option Shell := all.find? fun shell => shell.name = name

end Shell

inductive Command where
  | transform (options : TransformOptions)
  | query (params : String) (rewrite : RewriteOptions)
  | config (command : ConfigCommand)
  | completions (shell : Shell)
  deriving DecidableEq, Repr

structure Invocation where
  globals : GlobalOptions
  command : Command
  deriving DecidableEq, Repr

end MediaRange
