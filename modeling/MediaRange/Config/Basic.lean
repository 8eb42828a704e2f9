import MediaRange.CustomValue
import MediaRange.Json

/-!
# Configurations

A `Config` is what a configuration file says: the custom value pattern as it is written, and
whether bounds of custom values are wrapped in `calc()`.
-/

namespace MediaRange

structure Config where
  customValue : Option String := none
  useCalc : Bool := false
  deriving DecidableEq, Repr

namespace Config

/-- A configuration that recognises CSS custom properties. -/
def sample : Config := ⟨some "/var\\(--[a-z0-9-]+\\)/i", true⟩

def settings (config : Config) : Except SettingsError Settings :=
  match config.customValue with
  | none => .ok ⟨none, config.useCalc⟩
  | some pattern => (CustomValue.read? pattern.toList).map fun custom => ⟨some custom, config.useCalc⟩

end Config

/-- A part of a configuration that has a key in its file. -/
inductive ConfigField where
  | customValue
  | useCalc
  deriving DecidableEq, Repr

namespace ConfigField

def all : List ConfigField := [customValue, useCalc]

def key : ConfigField → String
  | customValue => "customValueRegExp"
  | useCalc => "useCalc"

def otherKeys : ConfigField → List String
  | customValue => ["customValueRegexp", "custom_value_regexp"]
  | useCalc => ["use_calc"]

def keys (field : ConfigField) : List String := field.key :: field.otherKeys

def ofKey? (key : String) : Option ConfigField := all.find? fun field => key ∈ field.keys

end ConfigField

namespace Config

def knownKeys : List String := ConfigField.all.flatMap ConfigField.keys

/-- The configuration as it is written to a file; a pattern that is absent is left out. -/
def json (config : Config) : Json :=
  let pattern := match config.customValue with
    | some pattern => [(ConfigField.customValue.key, Json.string pattern)]
    | none => []
  .object (pattern ++ [(ConfigField.useCalc.key, .bool config.useCalc)])

/-- The text of the configuration, without a line end. -/
def text (config : Config) : String := config.json.pretty

end Config

end MediaRange
