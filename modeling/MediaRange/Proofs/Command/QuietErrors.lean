import MediaRange.Proofs.Command.ErrorOutput
import MediaRange.Proofs.Command.Responses
import MediaRange.Proofs.Command.Steps

/-!
# Errors of quiet runs

A quiet run that fails reports on the error output, after whole lines of the log, and prints no more
than the stylesheets before the failure. By `runOn_quiet_failure` there are two exceptions: where JSON
is asked for the error is printed as a response, and a verification prints the problems that it finds.
-/

namespace MediaRange

/-! ### What a transformation has printed -/

namespace Source

/-- The source holds a text. Reading it uses the input up. -/
inductive Holds (files : FileStore) : Content → Source → String → Content → Prop where
  | input {text : String} : Holds files (.text text) .input text (.text "")
  | file {input : Content} {path : Path} {text : String} (read : files.read path = .ok (.text text)) :
    Holds files input (.file path) text input

/-- The sources hold the texts, if they are read one after another. -/
inductive Hold (files : FileStore) : Content → List Source → List String → Prop where
  | nil {input : Content} : Hold files input [] []
  | cons {input left : Content} {source : Source} {text : String} {sources : List Source}
    {texts : List String} (first : source.Holds files input text left)
    (rest : Hold files left sources texts) : Hold files input (source :: sources) (text :: texts)

end Source

namespace Task

open Machine

theorem readSource_cases (source : Source) (machine : Machine) :
    (∃ text after, (readSource source).Gives machine text after ∧
        source.Holds machine.session.files machine.session.input text after.session.input ∧
        after.session.files = machine.session.files ∧ output after = output machine) ∨
      ∃ failure after, (readSource source : Task (StateM Machine) String).on machine =
        (.error failure, after) ∧ output after = output machine := by
  cases source with
  | file path =>
    rcases readText_cases (.sourceUnreadable (.file path)) path machine with
      ⟨text, after, read, held, same⟩ | ⟨cause, after, failed, same⟩
    · have input : after.session.input = machine.session.input := congrArg Scene.input same
      refine .inl ⟨text, after, read, ?_, congrArg Scene.files same, congrArg Scene.output same⟩
      rw [input]
      exact .file held
    · exact .inr ⟨_, after, failed, congrArg Scene.output same⟩
  | input =>
    have read : (attempt (.sourceUnreadable .input) Host.readInput :
        Task (StateM Machine) Content).on machine =
          ((ask .readInput .error Host.readInput machine).1.mapError (.sourceUnreadable .input),
            (ask .readInput .error Host.readInput machine).2) := rfl
    unfold readSource
    cases refused : machine.refusal machine.asked .readInput with
    | some cause =>
      rw [ask_refused refused] at read
      exact .inr ⟨_, _, on_bind_error read, rfl⟩
    | none =>
      let after : Machine := { machine with
        session := { machine.session with input := .text "" }, asked := machine.asked + 1 }
      have read : (attempt (.sourceUnreadable .input) Host.readInput :
          Task (StateM Machine) Content).on machine = (.ok machine.session.input, after) := by
        rw [read, ask_granted refused]
        rfl
      cases held : machine.session.input with
      | text text =>
        rw [held] at read
        exact .inl ⟨text, after, on_bind_ok read, .input, rfl, rfl⟩
      | raw bytes =>
        rw [held] at read
        exact .inr ⟨_, after, on_bind_ok read, rfl⟩

/-- Stylesheets are printed one after another, up to the first failure. -/
theorem output_transformSources {context : Context} {options : TransformOptions}
    (noJson : context.mode ≠ .json) (noSummary : options.hasSummary = false) (engine : Engine)
    {sources : List Source} {machine : Machine} {failure : Failure} {after : Machine}
    (failed : (transformSources context options engine sources :
      Task (StateM Machine) (List FileReport)).on machine = (.error failure, after)) :
    ∃ done rest texts, sources = done ++ rest ∧
      Source.Hold machine.session.files machine.session.input done texts ∧
      output after = output machine ++ String.join (texts.map engine.newCss) := by
  obtain ⟨⟨unchecked, inPlace⟩, noOutput⟩ :
      (options.check = false ∧ options.inPlace = false) ∧ options.output = none := by
    simpa [TransformOptions.hasSummary] using noSummary
  induction sources generalizing machine with
  | nil => cases failed
  | cons source sources ih =>
    rcases readSource_cases source machine with
      ⟨text, read, given, held, files, same⟩ | ⟨failure', read, stopped, same⟩
    · obtain ⟨report, printed, first, scene⟩ := exists_gives_transformSource_print unchecked noOutput
        inPlace noJson engine given
      have later : (transformSources context options engine sources).on printed =
          (.error failure, after) := by
        rcases on_bind_eq_error_iff.mp ((on_bind_ok first).symm.trans failed) with
          failed | ⟨reports, last, -, failed⟩
        · exact failed
        · cases failed
      obtain ⟨done, rest, texts, rfl, hold, out⟩ := ih later
      have here : output printed = output machine ++ engine.newCss text :=
        (congrArg Scene.output scene).trans (congrArg (· ++ engine.newCss text) same)
      rw [show printed.session.files = machine.session.files from
          (congrArg Scene.files scene).trans files,
        show printed.session.input = read.session.input from congrArg Scene.input scene] at hold
      refine ⟨source :: done, rest, text :: texts, rfl, .cons held hold, ?_⟩
      rw [out, here, List.map_cons, String.join_cons, String.append_assoc]
    · have whole : (transformSources context options engine (source :: sources) :
          Task (StateM Machine) (List FileReport)).on machine = (.error failure', read) :=
        on_bind_error (on_bind_error stopped)
      rw [whole] at failed
      cases failed
      exact ⟨[], source :: sources, [], rfl, .nil, same.trans String.append_empty.symm⟩

/-! ### What a quiet task has printed when it fails -/

/-- On the machine, the task prints nothing if it fails. -/
def FailsSilently {α : Type} (x : Task (StateM Machine) α) (machine : Machine) : Prop :=
  ∀ failure after, x.on machine = (.error failure, after) → output after = output machine

section

variable {α β : Type} {x : Task (StateM Machine) α} {f : α → Task (StateM Machine) β}
  {machine : Machine}

theorem Keeps.failsSilently (h : Keeps Machine.output x) (machine : Machine) :
    FailsSilently x machine := by
  intro failure after failed
  have kept := h machine
  rw [failed] at kept
  exact kept

theorem Keeps.failsSilently_bind (first : Keeps Machine.output x)
    (second : ∀ a after, x.on machine = (.ok a, after) → FailsSilently (f a) after) :
    FailsSilently (x >>= f) machine := by
  intro failure after failed
  rcases on_bind_eq_error_iff.mp failed with failed | ⟨a, middle, given, failed⟩
  · exact first.failsSilently machine failure after failed
  · have kept := first machine
    rw [given] at kept
    exact (second a middle given failure after failed).trans kept

theorem failsSilently_print (text : String) :
    FailsSilently (print text : Task (StateM Machine) Unit) machine := by
  intro failure after failed
  cases failed

end

section

variable {context : Context} (quiet : context.mode = .quiet)
include quiet

theorem keeps_output_query (params : String) (rewrite : RewriteOptions) :
    Keeps output (query context params rewrite : Task (StateM Machine) Unit) := by
  unfold query
  refine (keeps_scene_buildEngine _ _).output.bind fun engine => ?_
  refine (keeps_scene_showLog _ _).output.bind fun _ => ?_
  rw [quiet]
  exact Keeps.when (keeps_scene_printError _).output (keeps_pure _)

theorem failsSilently_runConfig {command : ConfigCommand} {machine : Machine}
    (sound : ¬(command = .verify ∧ FindsProblems context machine)) :
    FailsSilently (runConfig context command : Task (StateM Machine) Unit) machine := by
  cases command with
  | current =>
    exact Keeps.failsSilently_bind (keeps_scene_loadConfig context).output fun _ _ _ =>
      failsSilently_print _
  | location =>
    exact Keeps.failsSilently_bind (keeps_locateConfig _ _) fun _ _ _ => failsSilently_print _
  | sample => exact failsSilently_print _
  | create force =>
    refine Keeps.failsSilently ((keeps_locateConfig _ _).bind fun place => ?_) machine
    have saved : Keeps output (saveConfig Config.sample place.path : Task (StateM Machine) Unit) :=
      (keeps_printed_saveConfig _ _).map Prod.fst
    refine (keeps_scene_contains _).output.bind fun present => ?_
    refine Keeps.when (keeps_throw _) (saved.bind fun _ => ?_)
    rw [if_neg (by simp [quiet])]
    exact keeps_pure _
  | verify =>
    refine Keeps.failsSilently_bind (keeps_locateConfig _ _) fun place middle given => ?_
    obtain ⟨located, rfl⟩ := gives_locateConfig_iff.mp given
    refine Keeps.failsSilently_bind (keeps_scene_verifyFile _).output fun problems after found => ?_
    cases problems with
    | cons problem problems =>
      exact absurd ⟨rfl, place, located, problem, problems, after, found⟩ sound
    | nil =>
      rw [quiet]
      exact (keeps_pure ()).failsSilently after

theorem on_verifyConfig_quiet {place : ConfigPlace} (located : context.configPlace? = some place)
    {machine middle : Machine} {problem : String} {problems : List String}
    (found : (verifyFile place.path).on machine = (.ok (problem :: problems), middle)) :
    ∃ after, (verifyConfig context).on machine = (.error .verificationFailed, after) ∧
      output after = output machine ++ problemText place.path (problem :: problems) := by
  have kept := (keeps_scene_verifyFile place.path).output machine
  rw [found] at kept
  let report := problemText place.path (problem :: problems)
  refine ⟨((Host.print report : StateM Machine Unit) middle).2, ?_, congrArg (· ++ report) kept⟩
  unfold verifyConfig
  rw [on_bind_ok (gives_locateConfig_iff.mpr ⟨located, rfl⟩), on_bind_ok found, quiet]
  rfl

theorem keeps_output_concludeTransform (options : TransformOptions) (reports : List FileReport) :
    Keeps output (concludeTransform context.mode options reports : Task (StateM Machine) Unit) := by
  unfold concludeTransform
  rw [quiet]
  dsimp only
  rw [if_neg (by simp)]
  refine Keeps.when (keeps_throw _) ?_
  rw [if_neg (by simp)]
  exact keeps_pure _

/-- A transformation that fails has printed nothing, or the stylesheets before the failure. -/
theorem output_transform {options : TransformOptions} {machine after : Machine} {failure : Failure}
    (failed : (transform context options : Task (StateM Machine) Unit).on machine =
      (.error failure, after)) :
    output after = output machine ∨ ∃ engine done rest texts,
      ((buildEngine context options.rewrite).on machine).1 = .ok engine ∧
      Source.ofOperands options.files = done ++ rest ∧
      Source.Hold machine.session.files machine.session.input done texts ∧
      output after = output machine ++ String.join (texts.map engine.newCss) := by
  unfold transform at failed
  rcases on_bind_eq_error_iff.mp failed with failed | ⟨engine, middle, built, failed⟩
  · exact .inl ((keeps_scene_buildEngine _ _).output.failsSilently machine failure after failed)
  have same : middle.scene = machine.scene := by
    have kept := keeps_scene_buildEngine context options.rewrite machine
    rwa [built] at kept
  dsimp only at failed
  split at failed
  · cases failed
    exact .inl (congrArg Scene.output same)
  split at failed
  · cases failed
    exact .inl (congrArg Scene.output same)
  by_cases summary : options.hasSummary = true
  · have kept : Keeps output (transformSources context options engine
        (Source.ofOperands options.files) : Task (StateM Machine) (List FileReport)) :=
      keeps_transformSources Scene.output (keeps_output_deliver (.inr summary)) engine _
    have whole := kept.bind (keeps_output_concludeTransform quiet options)
    exact .inl ((whole.failsSilently middle failure after failed).trans
      (congrArg Scene.output same))
  · rcases on_bind_eq_error_iff.mp failed with failed | ⟨reports, last, -, failed⟩
    · obtain ⟨done, rest, texts, split, hold, out⟩ := output_transformSources (by simp [quiet])
        (by simpa using summary) engine failed
      rw [show middle.session.files = machine.session.files from congrArg Scene.files same,
        show middle.session.input = machine.session.input from congrArg Scene.input same] at hold
      rw [show output middle = output machine from congrArg Scene.output same] at out
      exact .inr ⟨engine, done, rest, texts, congrArg Prod.fst built, split, hold, out⟩
    -- Without a check, nothing is left that could fail.
    · have unchecked : options.check = false := by
        simp only [TransformOptions.hasSummary, Bool.or_eq_true, not_or, Bool.not_eq_true] at summary
        exact summary.1.1
      unfold concludeTransform at failed
      dsimp only at failed
      rw [quiet, if_neg (by simp), if_neg (by simp [unchecked]), if_neg (by simp)] at failed
      cases failed

end

end Task

/-! ### Runs -/

namespace Invocation

variable {invocation : Invocation} {environment : Environment} {machine : Machine}

/-- The new stylesheets of the first sources of a transformation, or of all of them. -/
def IsStylesheets (invocation : Invocation) (environment : Environment) (machine : Machine)
    (text : String) : Prop :=
  ∃ options engine done rest texts, invocation.command = .transform options ∧
    ((Task.buildEngine (invocation.context environment) options.rewrite).on machine).1 =
      .ok engine ∧
    Source.ofOperands options.files = done ++ rest ∧
    Source.Hold machine.session.files machine.session.input done texts ∧
    text = String.join (texts.map engine.newCss)

/-- What a quiet task has printed when it fails. -/
structure PrintedOnFailure (invocation : Invocation) (environment : Environment)
    (machine : Machine) (text : String) : Prop where
  stylesheets : ¬invocation.FindsProblems environment machine →
    text = "" ∨ invocation.IsStylesheets environment machine text
  problems : invocation.FindsProblems environment machine →
    ∃ place ∈ (invocation.context environment).configPlace?, ∃ problem problems,
      ((Task.verifyFile place.path).on machine).1 = .ok (problem :: problems) ∧
      text = Task.problemText place.path (problem :: problems)

theorem exists_printedOnFailure (quiet : (invocation.context environment).mode = .quiet)
    {failure : Failure} {after : Machine}
    (failed : (invocation.task environment).on machine = (.error failure, after)) :
    ∃ text, Machine.output after = Machine.output machine ++ text ∧
      invocation.PrintedOnFailure environment machine text := by
  by_cases finds : invocation.FindsProblems environment machine
  · obtain ⟨verify, place, located, problem, problems, middle, found⟩ := finds
    obtain ⟨last, failed', out⟩ := Task.on_verifyConfig_quiet quiet located found
    have task : (invocation.task environment).on machine = (.error .verificationFailed, last) := by
      rw [Invocation.task, verify]
      exact failed'
    rw [failed] at task
    cases task
    have finds : invocation.FindsProblems environment machine :=
      ⟨verify, place, located, problem, problems, middle, found⟩
    exact ⟨_, out, fun sound => absurd finds sound,
      fun _ => ⟨place, located, problem, problems, congrArg Prod.fst found, rfl⟩⟩
  · suffices h : Machine.output after = Machine.output machine ∨ ∃ text,
        Machine.output after = Machine.output machine ++ text ∧
          invocation.IsStylesheets environment machine text by
      rcases h with same | ⟨text, out, stylesheets⟩
      · exact ⟨"", same.trans String.append_empty.symm, fun _ => .inl rfl, fun found => absurd found finds⟩
      · exact ⟨text, out, fun _ => .inr stylesheets, fun found => absurd found finds⟩
    obtain ⟨globals, command⟩ := invocation
    cases command with
    | transform options =>
      rcases Task.output_transform quiet failed with
        same | ⟨engine, done, rest, texts, built, split, hold, out⟩
      · exact .inl same
      · exact .inr ⟨_, out, options, engine, done, rest, texts, rfl, built, split, hold, rfl⟩
    | query params rewrite =>
      exact .inl ((Task.keeps_output_query quiet params rewrite).failsSilently machine _ _ failed)
    | config command =>
      refine .inl (Task.failsSilently_runConfig quiet (fun found => finds ?_) _ _ failed)
      obtain ⟨rfl, found⟩ := found
      exact ⟨rfl, found⟩
    | completions shell => cases failed

/-- A quiet run that fails adds its error to the error output as a line of its own, or prints it as a
response if JSON is asked for. Apart from that it has printed stylesheets only, unless it is a
verification that finds problems: then it has printed these. -/
theorem runOn_quiet_failure (quiet : invocation.globals.quiet = true)
    (fails : (invocation.runOn environment machine).1 ≠ 0) :
    ∃ failure log text,
      ((invocation.task environment).on machine).1 = .error failure ∧
      (invocation.runOn environment machine).1 = failure.kind.code ∧
      IsLines log ∧ invocation.PrintedOnFailure environment machine text ∧
      (invocation.globals.json = false →
        (invocation.runOn environment machine).2.session.errors =
          machine.session.errors ++ log ++ s!"error: {failure.message}\n" ∧
        (invocation.runOn environment machine).2.session.output = machine.session.output ++ text) ∧
      (invocation.globals.json = true →
        (invocation.runOn environment machine).2.session.errors = machine.session.errors ++ log ∧
        (invocation.runOn environment machine).2.session.output =
          machine.session.output ++ text ++ (Response.failure failure).line) := by
  have mode : (invocation.context environment).mode = .quiet := by
    simp [Context.mode, context, quiet]
  cases h : (invocation.task environment).on machine with
  | mk result after =>
    cases result with
    | ok nothing =>
      rw [runOn_ok h] at fails
      exact absurd rfl fails
    | error failure =>
      obtain ⟨log, lines, logged⟩ := logsLines_task invocation environment machine
      obtain ⟨text, out, printed⟩ := exists_printedOnFailure mode h
      rw [h] at logged
      refine ⟨failure, log, text, rfl, congrArg Prod.fst (runOn_error h), lines, printed,
        fun loud => ?_, fun json => ?_⟩
      · rw [runOn_error h, reportFailure_plain failure loud]
        exact ⟨congrArg (· ++ s!"error: {failure.message}\n") logged, out⟩
      · rw [runOn_error h, reportFailure_json failure json]
        exact ⟨logged, congrArg (· ++ (Response.failure failure).line) out⟩

/-- The first stylesheet has been printed when the second one turns out to be missing. -/
theorem runOn_quiet_failure_missing :
    let invocation : Invocation :=
      ⟨{ quiet := true }, .transform { files := [⟨"a.css"⟩, ⟨"b.css"⟩] }⟩
    let machine := Machine.holding "a.css" "@media (width > 1px)"
    (invocation.runOn { home := some "/tmp" } machine).1 ≠ 0 ∧ ∃ failure log text,
      IsLines log ∧ invocation.PrintedOnFailure { home := some "/tmp" } machine text ∧
      (invocation.runOn { home := some "/tmp" } machine).2.session.errors =
        "" ++ log ++ s!"error: {Failure.message failure}\n" ∧
      (invocation.runOn { home := some "/tmp" } machine).2.session.output = "" ++ text := by
  intro invocation machine
  have fails : (invocation.runOn { home := some "/tmp" } machine).1 ≠ 0 := by decide +kernel
  obtain ⟨failure, log, text, -, -, lines, printed, loud, -⟩ :=
    runOn_quiet_failure (show invocation.globals.quiet = true by rfl) fails
  exact ⟨fails, failure, log, text, lines, printed, loud rfl⟩

/-- Where JSON is asked for, a quiet run prints its error, and nothing on the error output. Without
JSON, a quiet verification prints the problems that it finds. -/
theorem runOn_quiet_printed :
    let missing : Invocation :=
      ⟨{ config := some ⟨"missing"⟩, json := true, quiet := true }, .config .current⟩
    let unsound : Invocation := ⟨{ config := some ⟨"c"⟩, quiet := true }, .config .verify⟩
    let machine := Machine.holding "c" "{calc: true}"
    Arguments.read ["config", "show", "--quiet", "--json", "--config", "missing"] = .ok missing ∧
      (missing.runOn { home := some "/tmp" } machine).1 = 4 ∧
      (missing.runOn { home := some "/tmp" } machine).2.session.errors = "" ∧
      (missing.runOn { home := some "/tmp" } machine).2.session.output =
        (Response.failure (.configMissing ⟨"missing"⟩)).line ∧
      Arguments.read ["config", "verify", "--quiet", "--config", "c"] = .ok unsound ∧
      (unsound.runOn { home := some "/tmp" } machine).1 = 4 ∧
      (unsound.runOn { home := some "/tmp" } machine).2.session.output =
        "✗ Configuration has 1 error(s): c\n\n  - unknown key 'calc'\n" := by
  refine ⟨by rfl, ?_, ?_, ?_, by rfl, ?_, ?_⟩
  · decide +kernel
  · decide +kernel
  · decide +kernel
  · decide +kernel
  · decide +kernel

end Invocation

end MediaRange
