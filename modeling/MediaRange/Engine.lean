import MediaRange.Grammar
import MediaRange.Log
import MediaRange.Query

/-!
# Rewriting parameters

An `Engine` rewrites the parameters of a media rule. Each match of its grammar gets a `Verdict`,
from which the new text, the list of rewrites and the log records are read off. Double comparisons
are rewritten first, so that the single grammar never sees their halves.
-/

namespace MediaRange

/-- A range that was replaced, and what it was replaced by. -/
structure Rewrite where
  original : List Char
  replacement : List Char
  deriving DecidableEq, Repr

/-- What becomes of a range: it is rewritten, or left as it is for one of three reasons. -/
inductive Verdict where
  | rewritten (replacement : List Char)
  | unknownFeature (name : List Char) (suggestion : Option Feature)
  | mixedDirections
  | missingValue
  deriving DecidableEq, Repr

namespace Verdict

/-- The text that takes the place of a range. -/
def text (original : List Char) : Verdict → List Char
  | rewritten replacement => replacement
  | _ => original

def rewrite? (original : List Char) : Verdict → Option Rewrite
  | rewritten replacement => some ⟨original, replacement⟩
  | _ => none

/-- The log record of a verdict. Only a name that looks misspelt deserves a warning. -/
def record (original : List Char) (verdict : Verdict) : LogRecord :=
  let range := String.ofList original
  match verdict with
  | rewritten replacement =>
    ⟨.trace, .rewriting, s!"rewrote '{range}' -> '{String.ofList replacement}'"⟩
  | unknownFeature name none =>
    ⟨.debug, .rewriting, s!"unknown media feature '{String.ofList name}' left unchanged"⟩
  | unknownFeature name (some suggestion) =>
    ⟨.warn, .rewriting,
      s!"unknown media feature '{String.ofList name}' in '{range}' left unchanged " ++
        s!"(did you mean '{suggestion.name}'?)"⟩
  | mixedDirections => ⟨.debug, .rewriting, s!"mixed-direction range left unchanged: {range}"⟩
  | missingValue => ⟨.debug, .rewriting, s!"range without a value left unchanged: {range}"⟩

end Verdict

/-- A piece of the parameters: a character between ranges, or a range with its verdict. -/
inductive Judged where
  | plain (c : Char)
  | range (original : List Char) (verdict : Verdict)

namespace Judged

def text : Judged → List Char
  | plain c => [c]
  | range original verdict => verdict.text original

def rewrite? : Judged → Option Rewrite
  | plain _ => none
  | range original verdict => verdict.rewrite? original

def record? : Judged → Option LogRecord
  | plain _ => none
  | range original verdict => some (verdict.record original)

end Judged

inductive Outcome where
  | skipped
  | unchanged
  | rewritten (params : List Char) (rewrites : List Rewrite)
  deriving DecidableEq, Repr

namespace Outcome

/-- The new parameters, or the given ones if nothing was rewritten. -/
def paramsOr (original : List Char) : Outcome → List Char
  | rewritten params _ => params
  | _ => original

def rewrites : Outcome → List Rewrite
  | rewritten _ rewrites => rewrites
  | _ => []

end Outcome

/-- A result with the log records made on the way. -/
structure Logged (α : Type) where
  value : α
  log : List LogRecord

/-- Settings with the grammar that belongs to them. -/
structure Engine where
  grammar : Grammar
  settings : Settings

namespace Engine

def build (settings : Settings) : Except SettingsError Engine := do
  return ⟨← Grammar.build settings.customValue, settings⟩

/-- The query of an expression with a known feature and a value. -/
def judgeSingle (engine : Engine) (m : Match) : Verdict :=
  let name := m.group "feature"
  match Feature.named? name with
  | none => .unknownFeature name (Feature.suggested? name)
  | some feature =>
    match Comparison.ofText? (m.group "op") with
    | none => .missingValue
    | some comparison =>
      let value := m.group "value"
      if (Unicode.trim value).isEmpty then .missingValue
      else
        let e : RangeExpression := ⟨feature, comparison, !(m.group "eq").isEmpty, value⟩
        .rewritten (e.query engine.settings)

/-- The queries of both bounds, the lower one first. Read from left to right, `<` has the lower
bound on the left and `>` on the right; each bound keeps its equality sign. -/
def judgeDouble (engine : Engine) (m : Match) : Verdict :=
  let name := m.group "feature"
  match Feature.named? name with
  | none => .unknownFeature name (Feature.suggested? name)
  | some feature =>
    match Comparison.ofText? (m.group "left_op"), Comparison.ofText? (m.group "right_op") with
    | some first, some second =>
      if first ≠ second then .mixedDirections
      else
        let left := m.group "left"
        let right := m.group "right"
        if (Unicode.trim left).isEmpty || (Unicode.trim right).isEmpty then .missingValue
        else
          let atLeft (c : Comparison) : RangeExpression :=
            ⟨feature, c, !(m.group "left_eq").isEmpty, left⟩
          let atRight (c : Comparison) : RangeExpression :=
            ⟨feature, c, !(m.group "right_eq").isEmpty, right⟩
          let (lower, upper) := match first with
            | .less => (atLeft .greater, atRight .less)
            | .greater => (atRight .greater, atLeft .less)
          .rewritten
            (lower.query engine.settings ++ " and ".toList ++ upper.query engine.settings)
    | _, _ => .missingValue

/-- Cuts a text by a pattern and judges its matches. -/
def judge (p : Pattern) (verdict : Match → Verdict) (text : List Char) : List Judged :=
  (p.segments text).map fun
    | .plain c => .plain c
    | .found m => .range m.text (verdict m)

/-- Rewrites every range in the parameters. Parameters without `<` and `>` are skipped. -/
def rewriteParams (engine : Engine) (params : List Char) : Logged Outcome :=
  if !params.contains '<' && !params.contains '>' then
    ⟨.skipped, [⟨.trace, .rewriting, s!"no range syntax in '{String.ofList params}'"⟩]⟩
  else
    let doubles := judge engine.grammar.double engine.judgeDouble params
    let singles := judge engine.grammar.single engine.judgeSingle (doubles.flatMap Judged.text)
    let judged := doubles ++ singles
    let rewrites := judged.filterMap Judged.rewrite?
    ⟨if rewrites.isEmpty then .unchanged
      else .rewritten (singles.flatMap Judged.text) rewrites,
      judged.filterMap Judged.record?⟩

end Engine

/-! ### Rules -/

/-- The names of the rules that have media queries as their parameters. -/
def mediaRuleNames : List String := ["media", "custom-media"]

/-- Whether a rule has media queries as its parameters. Upper and lower case are the same in the
names of rules, but only in ASCII. -/
def isMediaRule (name : List Char) : Bool :=
  mediaRuleNames.any fun n => name.map Char.toLower = n.toList

structure Rule where
  name : List Char
  params : List Char
  deriving DecidableEq, Repr

def Engine.rewriteRule (engine : Engine) (rule : Rule) : Logged Outcome :=
  if isMediaRule rule.name then engine.rewriteParams rule.params else ⟨.skipped, []⟩

def Rule.updated (rule : Rule) (outcome : Outcome) : Rule :=
  { rule with params := outcome.paramsOr rule.params }

end MediaRange
