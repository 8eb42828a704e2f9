import MediaRange.Pattern.Reader
import MediaRange.Pattern.Search

/-!
# Custom values

A custom value pattern recognises values that are no numbers, such as `var(--bp)` or `$tablet`.
It is written as a bare pattern or as a literal `/body/flags`.
-/

namespace MediaRange

/-- Why the settings do not give an engine. -/
inductive SettingsError where
  | emptyCustomValue
  | customValueFlag (flag : Char) (pattern : String)
  | customValuePattern (pattern : String) (cause : PatternError)
  | grammar (cause : PatternError)
  deriving DecidableEq, Repr

def SettingsError.message : SettingsError → String
  | emptyCustomValue => "custom value pattern is empty"
  | customValueFlag flag pattern =>
    s!"unsupported flag '{flag}' in custom value pattern '{pattern}'"
  | customValuePattern pattern cause =>
    s!"invalid custom value pattern '{pattern}': {cause.message}"
  | grammar cause => s!"failed to compile media range grammar: {cause.message}"

/-- A pattern for custom values: its text without delimiters and flags, and what it recognises. -/
structure CustomValue where
  body : List Char
  recognizer : Pattern

namespace CustomValue

/-- The texts before and after the last occurrence of a character. -/
def splitAtLast? (separator : Char) : List Char → Option (List Char × List Char)
  | [] => none
  | c :: rest =>
    match splitAtLast? separator rest with
    | some (before, after) => some (c :: before, after)
    | none => if c = separator then some ([], rest) else none

/-- The body and the flags of a literal, which are divided by the first and last slash. -/
def splitLiteral? : List Char → Option (List Char × List Char)
  | '/' :: rest => splitAtLast? '/' rest
  | _ => none

/-- The flags of a literal switched on one after another; `g`, `u` and `y` say nothing about a
recogniser. The first character that is no flag is the error. -/
def flags (pattern : List Char) : PatternFlags → List Char → Except SettingsError PatternFlags
  | set, [] => .ok set
  | set, flag :: rest =>
    match flag with
    | 'i' => flags pattern { set with ignoreCase := true } rest
    | 'm' => flags pattern { set with multiLine := true } rest
    | 's' => flags pattern { set with dotAll := true } rest
    | 'g' | 'u' | 'y' => flags pattern set rest
    | flag => .error (.customValueFlag flag (String.ofList pattern))

def read? (pattern : List Char) : Except SettingsError CustomValue :=
  let (body, flagText) := (splitLiteral? pattern).getD (pattern, [])
  if body.isEmpty then .error .emptyCustomValue
  else
    match flags pattern {} flagText with
    | .error e => .error e
    | .ok set =>
      match Pattern.read? set body with
      | .error cause => .error (.customValuePattern (String.ofList pattern) cause)
      | .ok recognizer => .ok ⟨body, recognizer⟩

def recognizes (custom : CustomValue) (value : List Char) : Bool :=
  custom.recognizer.occursIn value

end CustomValue

structure Settings where
  customValue : Option CustomValue := none
  useCalc : Bool := false

end MediaRange
