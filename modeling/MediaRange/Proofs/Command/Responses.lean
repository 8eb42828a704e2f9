import MediaRange.Command.Arguments
import MediaRange.Proofs.Command.Effects
import MediaRange.Proofs.Json.RoundTrip

/-!
# One response for a run

A run that is asked for JSON prints one line with one response, by `runOn_responds`: a result if it
succeeds, and else an error with the exit code in its own. The one exception is a verification that
finds problems. It prints a result with the problems, and then fails.
-/

namespace MediaRange

/-! ### Lines with a response -/

/-- The members of an error: its code, its message and maybe a report. -/
def Json.IsError (error : Json) (code : Nat) : Prop :=
  ∃ message data, error = .object
    ([("code", .number (-32000 - code)), ("message", .string message)] ++ data) ∧
      (data = [] ∨ ∃ report, data = [("data", report)])

/-- A response to a run with an exit code has a result, or else an error with that code. -/
def Json.IsResponse (response : Json) (code : Nat) : Prop :=
  (code = 0 ∧ ∃ value,
    response = .object [("jsonrpc", .string "2.0"), ("result", value), ("id", .null)]) ∨
  (code ≠ 0 ∧ ∃ error, error.IsError code ∧
    response = .object [("jsonrpc", .string "2.0"), ("error", error), ("id", .null)])

/-- The text is one line, and the line is the response of a run with the exit code. -/
def IsResponseLine (text : String) (code : Nat) : Prop :=
  ∃ line response, text = line ++ "\n" ∧ '\n' ∉ line.toList ∧ Json.read? line = some response ∧
    response.IsResponse code

theorem IsResponseLine.count {text : String} {code : Nat} (h : IsResponseLine text code) :
    text.toList.count '\n' = 1 := by
  obtain ⟨line, response, rfl, noNewline, -⟩ := h
  have feed : "\n".toList = ['\n'] := by decide
  rw [String.toList_append, List.count_append, List.count_eq_zero.mpr noNewline, feed]
  rfl

/-- Two lines are not one. -/
theorem IsResponseLine.not_append {first second : String} {m n : Nat}
    (h : IsResponseLine first m) (h' : IsResponseLine second n) (code : Nat) :
    ¬IsResponseLine (first ++ second) code := by
  intro one
  have count := one.count
  rw [String.toList_append, List.count_append, h.count, h'.count] at count
  cases count

namespace Response

theorem isResponse_result (value : Json) : (json (result value)).IsResponse 0 :=
  .inl ⟨rfl, value, rfl⟩

theorem isResponse_failure (cause : Failure) :
    (json (failure cause)).IsResponse cause.kind.code := by
  refine .inr ⟨cause.kind.code_ne_zero, error cause, ?_, rfl⟩
  refine ⟨cause.message, _, rfl, ?_⟩
  split
  · exact .inr ⟨_, rfl⟩
  · exact .inl rfl

theorem isResponseLine_line {response : Response} {code : Nat} (h : response.json.IsResponse code) :
    IsResponseLine response.line code :=
  ⟨response.json.text, response.json, rfl, Json.newline_not_mem_text _, Json.read?_text _, h⟩

end Response

/-! ### Tasks that answer -/

namespace Task

open Machine

/-- On the machine, the task prints one result at its end, and nothing if it fails. -/
def Answers (x : Task (StateM Machine) Unit) (machine : Machine) : Prop :=
  (∀ after, x.on machine = (.ok (), after) →
    ∃ value, output after = output machine ++ (Response.result value).line) ∧
  ∀ failure after, x.on machine = (.error failure, after) → output after = output machine

section

variable {α : Type} {x : Task (StateM Machine) α} {f : α → Task (StateM Machine) Unit}
  {machine : Machine}

theorem Keeps.answers (first : Keeps output x)
    (second : ∀ a after, x.on machine = (.ok a, after) → Answers (f a) after) :
    Answers (x >>= f) machine := by
  have kept := first machine
  cases h : x.on machine with
  | mk result middle =>
    rw [h] at kept
    cases result with
    | ok a =>
      have answer := second a middle h
      unfold Answers at answer ⊢
      rw [on_bind_ok h, ← kept]
      exact answer
    | error failure =>
      unfold Answers
      rw [on_bind_error h]
      refine ⟨fun after same => ?_, fun failure' after same => ?_⟩
      · cases same
      · cases same
        exact kept

theorem answers_throw (failure : Failure) : Answers (throw failure) machine := by
  refine ⟨fun after same => ?_, fun failure' after same => ?_⟩
  · cases same
  · cases same
    rfl

theorem answers_print (value : Json) : Answers (print (Response.result value).line) machine := by
  refine ⟨fun after same => ?_, fun failure after same => ?_⟩
  · cases same
    exact ⟨value, rfl⟩
  · cases same

end

theorem Keeps.output {α : Type} {x : Task (StateM Machine) α} (h : Keeps scene x) :
    Keeps output x :=
  fun machine => congrArg Scene.output (h machine)

theorem answers_concludeTransform (options : TransformOptions) (reports : List FileReport)
    (machine : Machine) : Answers (concludeTransform .json options reports) machine := by
  unfold concludeTransform
  dsimp only
  rw [if_neg (by simp)]
  split
  · exact answers_throw _
  · exact answers_print _

theorem answers_transform {context : Context} (json : context.mode = .json)
    (options : TransformOptions) (machine : Machine) :
    Answers (transform context options) machine := by
  unfold transform
  refine (keeps_scene_buildEngine _ _).output.answers fun engine after _ => ?_
  dsimp only
  split
  · exact answers_throw _
  · split
    · exact answers_throw _
    · rw [json]
      refine Keeps.answers ?_ fun reports after _ => answers_concludeTransform _ _ _
      exact keeps_transformSources Scene.output (keeps_output_deliver (.inl json)) engine _

theorem answers_query {context : Context} (json : context.mode = .json) (params : String)
    (rewrite : RewriteOptions) (machine : Machine) :
    Answers (query context params rewrite) machine := by
  unfold query
  refine (keeps_scene_buildEngine _ _).output.answers fun engine after _ => ?_
  refine (keeps_scene_showLog _ _).output.answers fun _ after _ => ?_
  rw [json]
  dsimp only
  split
  · exact (keeps_scene_printError _).output.answers fun _ after _ => answers_print _
  · exact answers_print _

/-- The verification finds problems in the configuration file. -/
def FindsProblems (context : Context) (machine : Machine) : Prop :=
  ∃ place ∈ context.configPlace?, ∃ problem problems after,
    (verifyFile place.path).on machine = (.ok (problem :: problems), after)

section

variable {context : Context} (json : context.mode = .json) {machine : Machine}
include json

theorem answers_verifyConfig (sound : ¬FindsProblems context machine) :
    Answers (verifyConfig context) machine := by
  unfold verifyConfig
  refine (keeps_locateConfig _ _).answers fun place after given => ?_
  obtain ⟨located, rfl⟩ := gives_locateConfig_iff.mp given
  refine (keeps_scene_verifyFile _).output.answers fun problems last found => ?_
  rw [json]
  cases problems with
  | nil => exact answers_print _
  | cons problem problems => exact absurd ⟨place, located, problem, problems, last, found⟩ sound

theorem verifyConfig_of_findsProblems (found : FindsProblems context machine) :
    ∃ value after, (verifyConfig context).on machine = (.error .verificationFailed, after) ∧
      output after = output machine ++ (Response.result value).line := by
  obtain ⟨place, located, problem, problems, middle, found⟩ := found
  have kept := (keeps_scene_verifyFile place.path).output machine
  rw [found] at kept
  let value := verifyJson place.path (problem :: problems)
  let line := (Response.result value).line
  refine ⟨value, ((Host.print line : StateM Machine Unit) middle).2, ?_, ?_⟩
  · unfold verifyConfig
    rw [on_bind_ok (gives_locateConfig_iff.mpr ⟨located, rfl⟩), on_bind_ok found, json]
    rfl
  · rw [← kept]
    rfl

end

end Task

/-! ### Runs -/

/-- The commands that give a response. -/
def Command.Responds : Command → Prop
  | transform _ | query .. | config .verify => True
  | _ => False

namespace Invocation

variable {invocation : Invocation} {environment : Environment} {machine : Machine}

def FindsProblems (invocation : Invocation) (environment : Environment) (machine : Machine) :
    Prop :=
  invocation.command = .config .verify ∧
    Task.FindsProblems (invocation.context environment) machine

theorem answers_task (json : (invocation.context environment).mode = .json)
    (responds : invocation.command.Responds)
    (sound : ¬invocation.FindsProblems environment machine) :
    Task.Answers (invocation.task environment) machine := by
  obtain ⟨globals, command⟩ := invocation
  cases command with
  | transform options => exact Task.answers_transform json options machine
  | query params rewrite => exact Task.answers_query json params rewrite machine
  | config command =>
    cases command with
    | verify =>
      exact Task.answers_verifyConfig json fun found => sound ⟨rfl, found⟩
    | current | location | sample | create force => exact responds.elim
  | completions shell => exact responds.elim

theorem output_runOn_error (json : invocation.globals.json = true) {failure : Failure}
    {after : Machine} (h : (invocation.task environment).on machine = (.error failure, after)) :
    (invocation.runOn environment machine).1 = failure.kind.code ∧
      Machine.output (invocation.runOn environment machine).2 =
        Machine.output after ++ (Response.failure failure).line := by
  rw [runOn_error h, reportFailure_json failure json]
  exact ⟨rfl, rfl⟩

/-- A run that is asked for JSON prints one line with its response, unless it is a verification
that finds problems: then a result comes first and an error after it. -/
theorem runOn_responds (json : invocation.globals.json = true)
    (loud : invocation.globals.quiet = false) (responds : invocation.command.Responds) :
    ∃ text, (invocation.runOn environment machine).2.session.output =
        machine.session.output ++ text ∧
      (IsResponseLine text (invocation.runOn environment machine).1 ↔
        ¬invocation.FindsProblems environment machine) ∧
      (invocation.FindsProblems environment machine →
        (invocation.runOn environment machine).1 = 4 ∧
          ∃ first second, text = first ++ second ∧ IsResponseLine first 0 ∧
            IsResponseLine second 4) := by
  have mode : (invocation.context environment).mode = .json := by
    simp [Context.mode, context, json, loud]
  by_cases finds : invocation.FindsProblems environment machine
  · obtain ⟨verify, found⟩ := finds
    obtain ⟨value, after, failed, printed⟩ := Task.verifyConfig_of_findsProblems mode found
    have task : (invocation.task environment).on machine = (.error .verificationFailed, after) := by
      rw [Invocation.task, verify]
      exact failed
    obtain ⟨code, output⟩ := output_runOn_error json task
    have first := Response.isResponseLine_line (Response.isResponse_result value)
    have second := Response.isResponseLine_line (Response.isResponse_failure .verificationFailed)
    refine ⟨(Response.result value).line ++ (Response.failure .verificationFailed).line, ?_, ?_, ?_⟩
    · rw [← String.append_assoc]
      rw [printed] at output
      exact output
    · refine ⟨fun one => absurd one (first.not_append second _), fun sound => ?_⟩
      exact absurd ⟨verify, found⟩ sound
    · exact fun _ => ⟨code, _, _, rfl, first, second⟩
  -- Else the task has printed its result, or nothing, and then the error is all there is.
  · obtain ⟨ok, error⟩ := answers_task mode responds finds
    cases h : (invocation.task environment).on machine with
    | mk result after =>
      cases result with
      | ok nothing =>
        obtain ⟨value, printed⟩ := ok after h
        rw [runOn_ok h]
        have line := Response.isResponseLine_line (Response.isResponse_result value)
        exact ⟨_, printed, ⟨fun _ => finds, fun _ => line⟩, fun found => absurd found finds⟩
      | error failure =>
        have kept := error failure after h
        obtain ⟨code, output⟩ := output_runOn_error json h
        rw [kept] at output
        rw [code]
        have line := Response.isResponseLine_line (Response.isResponse_failure failure)
        exact ⟨_, output, ⟨fun _ => finds, fun _ => line⟩, fun found => absurd found finds⟩

/-- A verification of the file `c` in the current directory. -/
def verification : Invocation := ⟨{ config := some ⟨"c"⟩, json := true }, .config .verify⟩

/-- A sound configuration gets its response. -/
theorem runOn_responds_sound :
    (verification.runOn { home := some "/tmp" } (.holding "c" "{useCalc: true}")).1 = 0 ∧
      ¬verification.FindsProblems { home := some "/tmp" } (.holding "c" "{useCalc: true}") ∧
      ∃ text, (verification.runOn { home := some "/tmp" }
          (.holding "c" "{useCalc: true}")).2.session.output = "" ++ text ∧
        IsResponseLine text 0 := by
  have code : (verification.runOn { home := some "/tmp" }
      (.holding "c" "{useCalc: true}")).1 = 0 := by decide +kernel
  obtain ⟨text, output, one, two⟩ := runOn_responds
    (show verification.globals.json = true by rfl) (show verification.globals.quiet = false by rfl)
    (show verification.command.Responds by trivial)
  have sound : ¬verification.FindsProblems { home := some "/tmp" }
      (.holding "c" "{useCalc: true}") := by
    intro found
    have four := (two found).1
    rw [code] at four
    cases four
  have line := one.mpr sound
  rw [code] at line
  exact ⟨code, sound, text, output, line⟩

/-- A key that is not known gives two lines, a result and an error. -/
theorem runOn_verification_twice :
    Arguments.read ["config", "verify", "--json", "--config", "c"] = .ok verification ∧
      (verification.runOn { home := some "/tmp" } (.holding "c" "{calc: true}")).1 = 4 ∧
      (verification.runOn { home := some "/tmp" }
        (.holding "c" "{calc: true}")).2.session.output =
        (Response.result (verifyJson ⟨"c"⟩ ["unknown key 'calc'"])).line ++
          (Response.failure .verificationFailed).line ∧
      ¬∃ code, IsResponseLine (verification.runOn { home := some "/tmp" }
        (.holding "c" "{calc: true}")).2.session.output code := by
  have run : ((verification.runOn { home := some "/tmp" } (.holding "c" "{calc: true}")).1,
      (verification.runOn { home := some "/tmp" }
        (.holding "c" "{calc: true}")).2.session.output) =
      (4, (Response.result (verifyJson ⟨"c"⟩ ["unknown key 'calc'"])).line ++
        (Response.failure .verificationFailed).line) := by
    decide +kernel
  obtain ⟨code, output⟩ := Prod.mk.inj run
  have first := Response.isResponseLine_line (Response.isResponse_result
    (verifyJson ⟨"c"⟩ ["unknown key 'calc'"]))
  have second := Response.isResponseLine_line (Response.isResponse_failure .verificationFailed)
  refine ⟨by rfl, code, output, ?_⟩
  rintro ⟨code, one⟩
  rw [output] at one
  exact first.not_append second code one

end Invocation

end MediaRange
