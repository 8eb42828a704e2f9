import MediaRange.Command.Failure
import MediaRange.Stylesheet.Basic

/-!
# Responses

The JSON-RPC responses that a run gives, and the reports in them.
-/

namespace MediaRange

/-- A line with a result, or with an error. -/
inductive Response where
  | result (value : Json)
  | failure (cause : Failure)

namespace Response

/-- The code of an error; the exit code counts down from the range of server errors. -/
def errorCode (kind : FailureKind) : Int := -32000 - kind.code

def error (cause : Failure) : Json :=
  .object ([("code", .number (errorCode cause.kind)), ("message", .string cause.message)] ++
    match cause.report? with
    | some report => [("data", report.sorted)]
    | none => [])

def json (response : Response) : Json :=
  let outcome := match response with
    | result value => ("result", value)
    | failure cause => ("error", error cause)
  .object [("jsonrpc", .string "2.0"), outcome, ("id", .null)]

def line (response : Response) : String := response.json.text ++ "\n"

end Response

/-! ### Reports -/

def Rewrite.json (r : Rewrite) : Json :=
  .object [("original", .string (String.ofList r.original)),
    ("replacement", .string (String.ofList r.replacement))]

def rewritesJson (rewrites : List Rewrite) : Json := .array (rewrites.map Rewrite.json)

def RuleChange.json (c : RuleChange) : Json :=
  .object [("line", .number c.line), ("rule", .string (String.ofList c.name)),
    ("before", .string (String.ofList c.before)), ("after", .string (String.ofList c.after)),
    ("rewrites", rewritesJson c.rewrites)]

/-- The report on one stylesheet: where its new text was written, or else the text itself. -/
structure FileReport where
  name : String
  changes : List RuleChange
  writtenTo : Option Path := none
  css : Option String := none

namespace FileReport

def isChanged (r : FileReport) : Bool := !r.changes.isEmpty

def json (r : FileReport) : Json :=
  let written := match r.writtenTo with
    | some path => [("written_to", Json.string path.text)]
    | none => []
  let css := match r.css with
    | some css => [("css", Json.string css)]
    | none => []
  .object ([("path", .string r.name), ("changed", .bool r.isChanged),
    ("changes", .array (r.changes.map RuleChange.json))] ++ written ++ css)

def summary (check : Bool) (r : FileReport) : String :=
  if !r.isChanged then s!"  {r.name}: no range syntax\n"
  else if check then s!"✗ {r.name}: {r.changes.length} rule(s) would be rewritten\n"
  else s!"✓ {r.name}: {r.changes.length} rule(s) rewritten\n"

end FileReport

def transformJson (check : Bool) (reports : List FileReport) : Json :=
  .object [("action", .string "transform"), ("check", .bool check),
    ("changed", .bool (reports.any FileReport.isChanged)),
    ("files", .array (reports.map FileReport.json))]

def queryJson (params : String) (outcome : Outcome) : Json :=
  .object [("action", .string "query"), ("params", .string params),
    ("result", .string (String.ofList (outcome.paramsOr params.toList))),
    ("skipped", .bool (outcome = .skipped)), ("rewrites", rewritesJson outcome.rewrites)]

def verifyJson (path : Path) (problems : List String) : Json :=
  .object [("action", .string "verify"), ("path", .string path.text),
    ("valid", .bool problems.isEmpty), ("errors", .array (problems.map .string))]

end MediaRange
