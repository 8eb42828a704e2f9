import MediaRange.Config.Basic
import MediaRange.Json5.Value

/-!
# Reading configurations

`Config.read` reads the text of a configuration file from left to right and stops at the first
error. Keys without a meaning are passed over, but their values must be readable. An array stands
for the values of the fields in their order.
-/

namespace MediaRange

open Json5

/-- What a value was expected to be. -/
inductive ConfigPart where
  | whole
  | field (field : ConfigField)
  deriving DecidableEq, Repr

def ConfigPart.description : ConfigPart → String
  | whole => "struct Config"
  | field .customValue => "a string"
  | field .useCalc => "a boolean"

/-- Why a document is no configuration. -/
inductive ConfigError where
  | value (cause : ValueError)
  | duplicate (field : ConfigField)
  | unexpected (found : Value) (place : ConfigPart)

/-- The error in words, with the value in the manner given. -/
def ConfigError.message (manner : Manner) : ConfigError → String
  | value cause => cause.message
  | duplicate field => s!"duplicate field \x60{field.key}\x60"
  | unexpected found place =>
    s!"invalid type: {found.description manner}, expected {place.description}"

/-- The fields that have been read so far. A pattern may be given as absent. -/
structure ConfigDraft where
  customValue : Option (Option String) := none
  useCalc : Option Bool := none
  deriving DecidableEq, Repr

namespace ConfigDraft

def has (draft : ConfigDraft) : ConfigField → Bool
  | .customValue => draft.customValue.isSome
  | .useCalc => draft.useCalc.isSome

def set (draft : ConfigDraft) (field : ConfigField) (value : Value) :
    Except ConfigError ConfigDraft :=
  match field, value with
  | .customValue, .null => .ok { draft with customValue := some none }
  | .customValue, .string text => .ok { draft with customValue := some (some text) }
  | .useCalc, .bool flag => .ok { draft with useCalc := some flag }
  | field, value => .error (.unexpected value (.field field))

/-- The configuration; fields that were not given have their default values. -/
def config (draft : ConfigDraft) : Config :=
  ⟨draft.customValue.join, draft.useCalc.getD false⟩

end ConfigDraft

namespace Config

def valueOf (document : Document) : Except ConfigError Value :=
  document.value.mapError .value

def readMembers (draft : ConfigDraft) : List (Key × Document) → Except ConfigError ConfigDraft
  | [] => .ok draft
  | (key, document) :: members => do
    let key ← (stringValue key).mapError .value
    match ConfigField.ofKey? key with
    | none =>
      document.check.mapError .value
      readMembers draft members
    | some field =>
      if draft.has field then .error (.duplicate field)
      else readMembers (← draft.set field (← valueOf document)) members

/-- Reads items as the values of the fields; more items are not looked at. -/
def readItems (draft : ConfigDraft) : List ConfigField → List Document → Except ConfigError ConfigDraft
  | field :: fields, document :: documents => do
    readItems (← draft.set field (← valueOf document)) fields documents
  | _, _ => .ok draft

def ofDocument : Document → Except ConfigError Config
  | .object members => (readMembers {} members).map ConfigDraft.config
  | .array items => (readItems {} ConfigField.all items).map ConfigDraft.config
  | document => do .error (.unexpected (← valueOf document) .whole)

def read (text : List Char) : Except ConfigError Config := do
  ofDocument (← (Document.read text).mapError .value)

end Config

end MediaRange
