import MediaRange.Proofs.Command.Effects
import MediaRange.Proofs.Files.Writing

/-!
# The steps of a transformation

`Machine.Supplies` tells which texts the sources of a transformation hold. A machine that supplies
them goes on to `deliver` each new stylesheet, by `on_transformSource`, and one lemma for each of
the places that it may be delivered to tells what is left behind.
-/

namespace MediaRange

def Engine.newCss (engine : Engine) (text : String) : String :=
  String.ofList (Stylesheet.process engine text.toList).value.css

def Engine.changes (engine : Engine) (text : String) : Bool :=
  (Stylesheet.process engine text.toList).value.isChanged

namespace Machine

/-- The sources can be read and hold the texts. Reading uses the input up. -/
inductive Supplies (machine : Machine) : Content → List Source → List String → Prop where
  | nil {input : Content} : Supplies machine input [] []
  | input {text : String} {sources : List Source} {texts : List String}
    (granted : machine.Grants .readInput) (h : Supplies machine (.text "") sources texts) :
    Supplies machine (.text text) (.input :: sources) (text :: texts)
  | file {input : Content} {path : Path} {text : String} {sources : List Source}
    {texts : List String} (granted : machine.Grants (.readFile path))
    (read : machine.session.files.read path = .ok (.text text))
    (h : Supplies machine input sources texts) :
    Supplies machine input (.file path :: sources) (text :: texts)

theorem Grants.congr {machine after : Machine} {operation : Operation}
    (h : machine.Grants operation) (refusal : after.refusal = machine.refusal) :
    after.Grants operation := by
  intro asked
  rw [refusal]
  exact h asked

theorem Supplies.congr {machine after : Machine} {input : Content} {sources : List Source}
    {texts : List String} (h : machine.Supplies input sources texts)
    (files : after.session.files = machine.session.files)
    (refusal : after.refusal = machine.refusal) : after.Supplies input sources texts := by
  induction h with
  | nil => exact .nil
  | input granted _ ih => exact .input (granted.congr refusal) ih
  | file granted read _ ih => exact .file (granted.congr refusal) (by rw [files, read]) ih

theorem Supplies.length_eq {machine : Machine} {input : Content} {sources : List Source}
    {texts : List String} (h : machine.Supplies input sources texts) :
    sources.length = texts.length := by
  induction h with
  | nil => rfl
  | input _ _ ih | file _ _ _ ih => exact congrArg (· + 1) ih

end Machine

namespace Task

open Machine

/-! ### Reading -/

theorem exists_gives_printError (text : String) (machine : Machine) :
    ∃ after, (printError text : Task (StateM Machine) Unit).Gives machine () after ∧
      after.scene = machine.scene :=
  ⟨_, rfl, rfl⟩

theorem exists_gives_showLog (context : Context) (log : List LogRecord) (machine : Machine) :
    ∃ after, (showLog context log : Task (StateM Machine) Unit).Gives machine () after ∧
      after.scene = machine.scene := by
  induction log generalizing machine with
  | nil => exact ⟨machine, rfl, rfl⟩
  | cons r log ih =>
    rw [showLog]
    dsimp only
    split
    · obtain ⟨middle, printed, first⟩ := exists_gives_printError r.line machine
      obtain ⟨after, shown, second⟩ := ih middle
      exact ⟨after, printed.bind shown, second.trans first⟩
    · exact ih machine

variable {machine : Machine} {source : Source} {sources : List Source} {text : String}
  {texts : List String}

theorem readText_cases (failure : FileError → Failure) (path : Path) (machine : Machine) :
    (∃ text after, (readText failure path).Gives machine text after ∧
        machine.session.files.read path = .ok (.text text) ∧ after.scene = machine.scene) ∨
      ∃ cause after, (readText failure path : Task (StateM Machine) String).on machine =
        (.error (failure cause), after) ∧ after.scene = machine.scene := by
  have read : (attempt failure (Host.readFile path) : Task (StateM Machine) Content).on machine =
      ((ask (.readFile path) .error (Host.readFile path) machine).1.mapError failure,
        (ask (.readFile path) .error (Host.readFile path) machine).2) := rfl
  unfold readText
  cases refused : machine.refusal machine.asked (.readFile path) with
  | some cause =>
    rw [ask_refused refused] at read
    exact .inr ⟨cause, _, on_bind_error read, rfl⟩
  | none =>
    rw [ask_granted refused] at read
    have result : ((Host.readFile path : StateM Session (Except FileError Content))
        machine.session) = (machine.session.files.read path, machine.session) := rfl
    rw [result] at read
    dsimp only at read
    cases held : machine.session.files.read path with
    | error cause =>
      rw [held] at read
      exact .inr ⟨cause, _, on_bind_error read, rfl⟩
    | ok content =>
      rw [held] at read
      cases content with
      | text text => exact .inl ⟨text, _, on_bind_ok read, rfl, rfl⟩
      | raw bytes => exact .inr ⟨.notText, _, on_bind_ok read, rfl⟩

theorem exists_gives_readSource
    (supplied : machine.Supplies machine.session.input (source :: sources) (text :: texts)) :
    ∃ after, (readSource source).Gives machine text after ∧ after.lasting = machine.lasting ∧
      after.Supplies after.session.input sources texts := by
  generalize hinput : machine.session.input = input at supplied
  cases supplied with
  | input granted rest =>
    have read : (Host.readInput : StateM Machine (Except FileError Content)) machine =
        (.ok (.text text), { machine with
          session := { machine.session with input := .text "" }, asked := machine.asked + 1 }) := by
      rw [← hinput]
      exact ask_granted (granted _) _ _
    refine ⟨_, (gives_attempt read).bind (gives_require rfl), rfl, ?_⟩
    exact rest.congr rfl rfl
  | @file _ path _ _ _ granted held rest =>
    have read : (Host.readFile path : StateM Machine (Except FileError Content)) machine =
        (.ok (.text text), { machine with asked := machine.asked + 1 }) := by
      rw [← held]
      exact ask_granted (granted _) _ _
    refine ⟨_, (gives_attempt read).bind (gives_require rfl), rfl, ?_⟩
    rw [hinput]
    exact rest.congr rfl rfl

/-- What is read is rewritten and delivered, and nothing but the error output changes before that. -/
theorem on_transformSource_read (context : Context) (options : TransformOptions) (engine : Engine)
    {after : Machine} (read : (readSource source).Gives machine text after) :
    ∃ middle, (transformSource context options engine source).on machine =
        (deliver context.mode options source (Stylesheet.process engine text.toList).value).on
          middle ∧
      middle.scene = after.scene := by
  obtain ⟨middle, shown, same⟩ :=
    exists_gives_showLog context (Stylesheet.process engine text.toList).log after
  unfold transformSource
  rw [on_bind_ok read]
  dsimp only
  rw [on_bind_ok shown]
  split
  · exact ⟨_, rfl, same⟩
  · exact ⟨_, rfl, same⟩

theorem on_transformSource (context : Context) (options : TransformOptions) (engine : Engine)
    (supplied : machine.Supplies machine.session.input (source :: sources) (text :: texts)) :
    ∃ middle, (transformSource context options engine source).on machine =
        (deliver context.mode options source (Stylesheet.process engine text.toList).value).on
          middle ∧
      middle.lasting = machine.lasting ∧ middle.Supplies middle.session.input sources texts := by
  obtain ⟨m₁, read, same, rest⟩ := exists_gives_readSource supplied
  obtain ⟨m₂, delivered, same'⟩ := on_transformSource_read context options engine read
  have lasting : m₂.lasting = m₁.lasting :=
    congrArg (fun seen : Scene => { seen with input := .text "" }) same'
  have input : m₂.session.input = m₁.session.input := congrArg Scene.input same'
  refine ⟨m₂, delivered, lasting.trans same, ?_⟩
  rw [input]
  exact rest.congr (congrArg Scene.files same') (congrArg Scene.refusal same')

/-! ### Delivering -/

/-- The report on a stylesheet that is neither written nor printed. -/
def plainReport (source : Source) (processed : Processed) : FileReport :=
  { name := source.name, changes := processed.changes }

/-- The report that brings the new stylesheet with it. -/
def fullReport (source : Source) (processed : Processed) : FileReport :=
  { name := source.name, changes := processed.changes, css := some (String.ofList processed.css) }

section

variable {mode : OutputMode} {options : TransformOptions} {processed : Processed}

theorem target?_of_not_and {changed : Bool} (h : (options.inPlace && changed) = false) :
    options.target? source changed = options.output := by
  unfold TransformOptions.target?
  rw [h]
  cases source with
  | input | file path => rfl

theorem target?_inPlace {path : Path} {changed : Bool} (inPlace : options.inPlace = true)
    (h : changed = true) : options.target? (.file path) changed = some path := by
  unfold TransformOptions.target?
  rw [inPlace, h]
  rfl

theorem deliver_check (check : options.check = true) :
    deliver mode options source processed =
      (pure (plainReport source processed) : Task (StateM Machine) FileReport) := by
  unfold deliver
  dsimp only
  rw [if_pos check]
  rfl

variable (unchecked : options.check = false)
include unchecked

theorem deliver_json (output : options.output = none) (inPlace : options.inPlace = false)
    (json : mode = .json) :
    deliver mode options source processed =
      (pure (fullReport source processed) : Task (StateM Machine) FileReport) := by
  have target : options.target? source processed.isChanged = none := by
    rw [target?_of_not_and (by rw [inPlace]; rfl), output]
  unfold deliver
  dsimp only
  rw [if_neg (by simp [unchecked]), target]
  dsimp only
  rw [if_neg (by simp [inPlace]), if_pos json]
  rfl

theorem deliver_print (output : options.output = none) (inPlace : options.inPlace = false)
    (noJson : mode ≠ .json) :
    deliver mode options source processed =
      (do
        print (String.ofList processed.css)
        return plainReport source processed : Task (StateM Machine) FileReport) := by
  have target : options.target? source processed.isChanged = none := by
    rw [target?_of_not_and (by rw [inPlace]; rfl), output]
  unfold deliver
  dsimp only
  rw [if_neg (by simp [unchecked]), target]
  dsimp only
  rw [if_neg (by simp [inPlace]), if_neg noJson]
  rfl

theorem deliver_unchanged (inPlace : options.inPlace = true) (output : options.output = none)
    (unchanged : processed.isChanged = false) :
    deliver mode options source processed =
      (pure (plainReport source processed) : Task (StateM Machine) FileReport) := by
  have target : options.target? source processed.isChanged = none := by
    rw [target?_of_not_and (by rw [unchanged, Bool.and_false]), output]
  unfold deliver
  dsimp only
  rw [if_neg (by simp [unchecked]), target]
  dsimp only
  rw [if_pos inPlace]
  rfl

theorem exists_gives_deliver_write {path : Path} {files : FileStore}
    (target : options.target? source processed.isChanged = some path)
    (granted : machine.refusal machine.asked (.writeFile path) = none)
    (written : machine.session.files.write path (String.ofList processed.css) = .ok files) :
    ∃ report after, (deliver mode options source processed).Gives machine report after ∧
      after.scene = { machine.scene with files := files, writes := machine.writes ++ [path] } := by
  have write : (Host.writeFile path (String.ofList processed.css) :
      StateM Machine (Except FileError Unit)) machine = (.ok (), { machine with
        session := { machine.session with files := files }, asked := machine.asked + 1,
        writes := machine.writes ++ [path] }) := by
    have asks : ({ machine with writes := machine.writes ++ [path] } : Machine).refusal
        machine.asked (.writeFile path) = none := granted
    refine (ask_granted asks Except.error _).trans ?_
    have session : (Host.writeFile path (String.ofList processed.css) :
        StateM Session (Except FileError Unit)) machine.session =
          (.ok (), { machine.session with files := files }) := by
      change Session.changeFiles _ machine.session = _
      rw [Session.changeFiles, written]
    rw [session]
  unfold deliver
  dsimp only
  rw [if_neg (by simp [unchecked]), target]
  exact ⟨_, _, (gives_attempt write).bind (gives_pure _ _), rfl⟩

end

/-- A stylesheet that has been read is rewritten and printed. -/
theorem exists_gives_transformSource_print {context : Context} {options : TransformOptions}
    (unchecked : options.check = false) (output : options.output = none)
    (inPlace : options.inPlace = false) (noJson : context.mode ≠ .json) (engine : Engine)
    {after : Machine} (read : (readSource source).Gives machine text after) :
    ∃ report printed, (transformSource context options engine source).Gives machine report printed ∧
      printed.scene = { after.scene with output := after.session.output ++ engine.newCss text } := by
  obtain ⟨middle, delivered, same⟩ := on_transformSource_read context options engine read
  rw [deliver_print unchecked output inPlace noJson] at delivered
  refine ⟨_, ((Host.print (engine.newCss text) : StateM Machine Unit) middle).2,
    delivered.trans rfl, ?_⟩
  exact congrArg (fun seen : Scene => { seen with output := seen.output ++ engine.newCss text }) same

/-! ### All sources -/

/-- Where a stylesheet is only reported on, all of them are. -/
theorem exists_gives_transformSources (context : Context) {options : TransformOptions}
    {report : Source → Processed → FileReport}
    (reported : ∀ source processed, deliver context.mode options source processed =
      (pure (report source processed) : Task (StateM Machine) FileReport)) (engine : Engine)
    (supplied : machine.Supplies machine.session.input sources texts) :
    ∃ after, (transformSources context options engine sources).Gives machine
        (List.zipWith (fun source text =>
          report source (Stylesheet.process engine text.toList).value) sources texts) after ∧
      after.lasting = machine.lasting := by
  induction sources generalizing machine texts with
  | nil =>
    obtain rfl := List.eq_nil_of_length_eq_zero supplied.length_eq.symm
    exact ⟨machine, rfl, rfl⟩
  | cons source sources ih =>
    cases texts with
    | nil => cases supplied.length_eq
    | cons text texts =>
      obtain ⟨middle, delivered, same, rest⟩ := on_transformSource context options engine supplied
      obtain ⟨after, given, same'⟩ := ih rest
      have first : (transformSource context options engine source).Gives machine
          (report source (Stylesheet.process engine text.toList).value) middle := by
        rw [Gives, delivered, reported]
        rfl
      exact ⟨after, first.bind (given.bind (gives_pure _ _)), same'.trans same⟩

section

variable {context : Context} {options : TransformOptions} {engine : Engine}

/-- A transformation that is no check, or finds nothing, succeeds in the end. -/
theorem exists_gives_concludeTransform (mode : OutputMode) (reports : List FileReport)
    (passed : options.check = false ∨ reports.any FileReport.isChanged = false)
    (machine : Machine) :
    ∃ after, (concludeTransform mode options reports).Gives machine () after ∧
      after.store = machine.store := by
  have noFailure :
      (options.check && decide (0 < reports.countP FileReport.isChanged)) = false := by
    rcases passed with unchecked | clean
    · rw [unchecked, Bool.false_and]
    · rw [Bool.and_eq_false_iff, decide_eq_false_iff_not, List.countP_pos_iff]
      refine .inr fun found => ?_
      rw [List.any_eq_true.mpr found] at clean
      cases clean
  unfold concludeTransform
  dsimp only
  simp only [noFailure, Bool.false_eq_true, if_false]
  split
  · split
    · exact ⟨_, rfl, rfl⟩
    · exact ⟨_, rfl, rfl⟩
  · split
    · exact ⟨_, rfl, rfl⟩
    · exact ⟨_, rfl, rfl⟩

/-- With an engine and sources that fit together, all that is left is to transform them. -/
theorem on_transform {middle : Machine}
    (built : (buildEngine context options.rewrite).on machine = (.ok engine, middle))
    (files : (options.inPlace && (Source.ofOperands options.files).contains .input) = false)
    (few : (options.output.isSome && decide (1 < (Source.ofOperands options.files).length)) =
      false) :
    (transform context options).on machine =
      (transformSources context options engine (Source.ofOperands options.files) >>=
        concludeTransform context.mode options).on middle := by
  unfold transform
  rw [on_bind_ok built]
  dsimp only
  rw [if_neg (by simp only [files]; decide), if_neg (by simp only [few]; decide)]

theorem exists_on_buildEngine {rewrite : RewriteOptions}
    (built : ((buildEngine context rewrite).on machine).1 = .ok engine) :
    ∃ middle, (buildEngine context rewrite).on machine = (.ok engine, middle) ∧
      middle.scene = machine.scene :=
  ⟨_, Prod.ext built rfl, keeps_scene_buildEngine context rewrite machine⟩

end

end Task

end MediaRange
