import MediaRange.Config.Reading
import MediaRange.Engine

/-!
# Verifying configurations

`Config.problems` lists what is wrong with the text of a configuration file: all keys without a
meaning, then the first error of a field, or else what keeps its settings from giving an engine.
Of members with the same key the last one counts.
-/

namespace MediaRange

open Json5

/-- Why a text cannot be verified. -/
inductive VerificationError where
  | value (cause : ValueError)
  | noObject
  deriving DecidableEq, Repr

def VerificationError.message : VerificationError → String
  | value cause => s!"invalid JSON5: {cause.message}"
  | noObject => "config must be an object"

/-- Something wrong with a configuration. -/
inductive ConfigProblem where
  | unknownKey (key : String)
  | unreadable (cause : ConfigError)
  | settings (cause : SettingsError)

def ConfigProblem.message : ConfigProblem → String
  | unknownKey key => s!"unknown key '{key}'"
  | unreadable cause => cause.message .json
  | settings cause => s!"{ConfigField.customValue.key}: {cause.message}"

namespace Config

/-- A value as JSON has it: numbers that are not finite are null. -/
def finiteValue : Value → Value
  | .number (.real _ (.infinite _)) | .number .nan => .null
  | value => value

/-- Puts a member into its place in the order of keys, instead of one with the same key. -/
def insertMember (key : String) (value : Value) : List (String × Value) → List (String × Value)
  | [] => [(key, value)]
  | (next, nextValue) :: members =>
    if key < next then (key, value) :: (next, nextValue) :: members
    else if key = next then (key, value) :: members
    else (next, nextValue) :: insertMember key value members

def sortMembers (sorted : List (String × Value)) :
    List (Key × Document) → Except ValueError (List (String × Value))
  | [] => .ok sorted
  | (key, document) :: members => do
    let key ← stringValue key
    let value ← document.value
    sortMembers (insertMember key (finiteValue value) sorted) members

/-- Fills the fields from members with known values. -/
def fill (draft : ConfigDraft) : List (String × Value) → Except ConfigError ConfigDraft
  | [] => .ok draft
  | (key, value) :: members =>
    match ConfigField.ofKey? key with
    | none => fill draft members
    | some field =>
      if draft.has field then .error (.duplicate field)
      else do fill (← draft.set field value) members

/-- What keeps a configuration from giving an engine. -/
def settingsError? (config : Config) : Option SettingsError :=
  match config.settings.bind Engine.build with
  | .ok _ => none
  | .error cause => some cause

/-- The problem with the values of the members, if there is one. -/
def valueProblem? (members : List (String × Value)) : Option ConfigProblem :=
  match fill {} members with
  | .error cause => some (.unreadable cause)
  | .ok draft => draft.config.settingsError?.map .settings

def unknownKeys (members : List (String × Value)) : List String :=
  (members.map Prod.fst).filter fun key => key ∉ knownKeys

def problems (text : List Char) : Except VerificationError (List ConfigProblem) := do
  let document ← (Document.read text).mapError .value
  document.check.mapError .value
  match document with
  | .object members =>
    let members ← (sortMembers [] members).mapError .value
    return (unknownKeys members).map .unknownKey ++ (valueProblem? members).toList
  | _ => .error .noObject

end Config

end MediaRange
