import MediaRange.Pattern.Reader
import MediaRange.Pattern.Search

/-!
# Log records

What the program reports while it works. A record is data; whether it is shown depends on the
`LogFilter` alone. A filter is written as directives such as `warn,media_minmax::config=debug`, and
after a slash it may have a pattern for messages. What cannot be read of it has no effect; the
warnings that a user gets about that are no records and are left out.
-/

namespace MediaRange

inductive LogLevel where
  | error
  | warn
  | info
  | debug
  | trace
  deriving DecidableEq, Repr

namespace LogLevel

def name : LogLevel → String
  | error => "ERROR"
  | warn => "WARN"
  | info => "INFO"
  | debug => "DEBUG"
  | trace => "TRACE"

/-- The name filled up to five characters. -/
def label (level : LogLevel) : String :=
  level.name ++ String.ofList (List.replicate (5 - level.name.length) ' ')

/-- Less urgent levels have higher ranks. -/
def rank : LogLevel → Nat
  | error => 1
  | warn => 2
  | info => 3
  | debug => 4
  | trace => 5

end LogLevel

/-- The part of the program that a record comes from. -/
inductive LogSource where
  | rewriting
  | configuration
  | commands
  deriving DecidableEq, Repr

def LogSource.name : LogSource → String
  | rewriting => "media_minmax::media::transform"
  | configuration => "media_minmax::config"
  | commands => "media_minmax::cli::commands"

structure LogRecord where
  level : LogLevel
  source : LogSource
  message : String
  deriving DecidableEq, Repr

def LogRecord.line (r : LogRecord) : String := s!"[{r.level.label} {r.source.name}] {r.message}\n"

/-- The levels that are shown: none, or all up to one. -/
inductive LogLimit where
  | off
  | upTo (level : LogLevel)
  deriving DecidableEq, Repr

namespace LogLimit

def shows : LogLimit → LogLevel → Bool
  | off, _ => false
  | upTo limit, level => level.rank ≤ limit.rank

/-- The limit that a level name stands for, in any case. -/
def named? (name : List Char) : Option LogLimit :=
  match String.ofList (name.map Char.toLower) with
  | "off" => some off
  | "error" => some (upTo .error)
  | "warn" => some (upTo .warn)
  | "info" => some (upTo .info)
  | "debug" => some (upTo .debug)
  | "trace" => some (upTo .trace)
  | _ => none

end LogLimit

/-- The limit of the sources whose names start with `name`, or of all sources. -/
structure LogDirective where
  name : Option String
  limit : LogLimit
  deriving DecidableEq, Repr

namespace LogDirective

def covers (directive : LogDirective) (source : LogSource) : Bool :=
  directive.name.all fun name => name.toList.isPrefixOf source.name.toList

/-- Longer names are more specific. -/
def length (directive : LogDirective) : Nat := (directive.name.getD "").utf8ByteSize

/-- Reads a level, the name of a source, or both with an equals sign between them. A name without
a level shows everything. -/
def read? (text : List Char) : Option LogDirective :=
  match text.splitOn '=' with
  | [part] => some ((LogLimit.named? part).elim ⟨some (.ofList part), .upTo .trace⟩ (⟨none, ·⟩))
  | [name, level] =>
    let level := Unicode.trim level
    if level.isEmpty then some ⟨some (.ofList name), .upTo .trace⟩
    else (LogLimit.named? level).map (⟨some (.ofList name), ·⟩)
  | _ => none

/-- Adds a directive; of two for the same name the later one holds. -/
def insert (directives : List LogDirective) (directive : LogDirective) : List LogDirective :=
  if directives.any (·.name = directive.name) then
    directives.map fun other => if other.name = directive.name then directive else other
  else directives ++ [directive]

/-- Reads directives with commas between them. Without any, errors are shown. -/
def readAll (text : List Char) : List LogDirective :=
  let directives := ((text.splitOn ',').map Unicode.trim).filterMap fun text =>
    if text.isEmpty then none else read? text
  if directives.isEmpty then [⟨none, .upTo .error⟩] else directives.foldl insert []

/-- The most specific of the directives for a source; of equally specific ones the last. -/
def decisive? (directives : List LogDirective) (source : LogSource) : Option LogDirective :=
  (directives.filter (·.covers source)).foldl
    (fun best next => if best.any (next.length < ·.length) then best else some next) none

end LogDirective

/-- Which records are shown: the directives decide by source and level, and the pattern, if there
is one, has to occur in the message. -/
structure LogFilter where
  directives : List LogDirective
  messages : Option Pattern := none
  deriving DecidableEq

namespace LogFilter

def shows (filter : LogFilter) (r : LogRecord) : Bool :=
  (LogDirective.decisive? filter.directives r.source).any (·.limit.shows r.level) &&
    filter.messages.all (·.occursIn r.message.toList)

def read (text : List Char) : LogFilter :=
  match text.splitOn '/' with
  | [directives] => ⟨LogDirective.readAll directives, none⟩
  | [directives, messages] => ⟨LogDirective.readAll directives, (Pattern.read? {} messages).toOption⟩
  | _ => ⟨LogDirective.readAll [], none⟩

/-- The filter for a run: without a setting, verbose runs show debug records and others warnings. -/
def ofSetting (setting : Option String) (verbose : Bool) : LogFilter :=
  match setting with
  | some text => read text.toList
  | none => ⟨[⟨none, .upTo (if verbose then .debug else .warn)⟩], none⟩

end LogFilter

end MediaRange
