import MediaRange.Command.ConfigFile

/-!
# The rewriting commands

`Task.transform` rewrites stylesheets one after another, `Task.query` a single parameter text. Both
build their engine from the configuration and the options that override it.
-/

namespace MediaRange

def Config.override (config : Config) (rewrite : RewriteOptions) : Config where
  customValue := rewrite.customValue <|> config.customValue
  useCalc := (config.useCalc || rewrite.useCalc) && !rewrite.noCalc

def Settings.record (settings : Settings) : LogRecord :=
  let custom := match settings.customValue with
    | some custom => String.ofList custom.body
    | none => "none"
  ⟨.debug, .commands, s!"custom values: {custom}, calc: {settings.useCalc}"⟩

def RuleChange.announcement (name : String) (c : RuleChange) : String :=
  s!"{name}:{c.line}: @{String.ofList c.name} {String.ofList c.before} -> {String.ofList c.after}\n"

namespace TransformOptions

/-- The file that a stylesheet is written to, if it is written at all. -/
def target? (options : TransformOptions) (source : Source) (changed : Bool) : Option Path :=
  match source, options.inPlace && changed with
  | .file path, true => some path
  | _, _ => options.output

/-- Whether a summary is given: not when stylesheets are printed. -/
def hasSummary (options : TransformOptions) : Bool :=
  options.check || options.inPlace || options.output.isSome

end TransformOptions

namespace Task

variable {m : Type → Type} [Monad m] [Host m]

/-- Builds the engine of a run. A pattern from the arguments is the user's mistake there. -/
def buildEngine (context : Context) (rewrite : RewriteOptions) : Task m Engine := do
  let config := (← loadConfig context).override rewrite
  let engine ← require (.settings rewrite.customValue.isSome) (config.settings.bind Engine.build)
  showLog context [engine.settings.record]
  return engine

def readSource (source : Source) : Task m String :=
  match source with
  | .file path => readText (.sourceUnreadable source) path
  | .input => do
    let content ← attempt (.sourceUnreadable source) Host.readInput
    require (.sourceUnreadable source) content.asText

/-- Puts a new stylesheet where it belongs, and reports on it. -/
def deliver (mode : OutputMode) (options : TransformOptions) (source : Source)
    (processed : Processed) : Task m FileReport := do
  let report : FileReport := { name := source.name, changes := processed.changes }
  let css := String.ofList processed.css
  if options.check then return report
  match options.target? source processed.isChanged with
  | some path =>
    attempt (.outputUnwritable path) (Host.writeFile path css)
    return { report with writtenTo := some path }
  | none =>
    if options.inPlace then return report
    else if mode = .json then return { report with css := some css }
    else
      print css
      return report

def transformSource (context : Context) (options : TransformOptions) (engine : Engine)
    (source : Source) : Task m FileReport := do
  let css ← readSource source
  let ⟨processed, log⟩ := Stylesheet.process engine css.toList
  showLog context log
  if context.globals.verbose then
    printError (String.join (processed.changes.map fun c => c.announcement source.name))
  deliver context.mode options source processed

/-- Rewrites stylesheets up to the first failure. -/
def transformSources (context : Context) (options : TransformOptions) (engine : Engine) :
    List Source → Task m (List FileReport)
  | [] => return []
  | source :: sources => do
    let report ← transformSource context options engine source
    return report :: (← transformSources context options engine sources)

/-- Reports on all stylesheets. A check fails if there was something to rewrite. -/
def concludeTransform (mode : OutputMode) (options : TransformOptions)
    (reports : List FileReport) : Task m Unit := do
  let report := transformJson options.check reports
  let changed := reports.countP FileReport.isChanged
  if mode = .text && options.hasSummary then
    print (String.join (reports.map (FileReport.summary options.check)))
  if options.check && 0 < changed then
    throw (.rangesFound changed (if mode = .json then some report else none))
  if mode = .json then print (Response.result report).line

def transform (context : Context) (options : TransformOptions) : Task m Unit := do
  let engine ← buildEngine context options.rewrite
  let sources := Source.ofOperands options.files
  if options.inPlace && sources.contains .input then throw .inputInPlace
  if options.output.isSome && 1 < sources.length then throw .severalInputs
  let reports ← transformSources context options engine sources
  concludeTransform context.mode options reports

def query (context : Context) (params : String) (rewrite : RewriteOptions) : Task m Unit := do
  let engine ← buildEngine context rewrite
  let ⟨outcome, log⟩ := engine.rewriteParams params.toList
  showLog context log
  if context.globals.verbose then
    printError (String.join (outcome.rewrites.map fun r =>
      s!"{String.ofList r.original} -> {String.ofList r.replacement}\n"))
  match context.mode with
  | .json => print (Response.result (queryJson params outcome)).line
  | .text => print (String.ofList (outcome.paramsOr params.toList) ++ "\n")
  | .quiet => return

end Task

end MediaRange
