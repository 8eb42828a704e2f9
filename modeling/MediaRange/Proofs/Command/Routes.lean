import MediaRange.Proofs.Command.Building
import MediaRange.Proofs.Command.InPlace
import MediaRange.Proofs.Json.RoundTrip

/-!
# All ways out give the same stylesheet

A new stylesheet can be printed, sent in a response, written to another file or put in place of the
old one. `runOn_transform_css` shows that it is the same text each time, and that no other way
touches a file.
-/

namespace MediaRange

namespace Task

open Machine

section

variable {context : Context} {options : TransformOptions} {machine : Machine}
  {sources : List Source} {texts : List String}

theorem exists_gives_transformSources_print (engine : Engine) (unchecked : options.check = false)
    (output : options.output = none) (inPlace : options.inPlace = false)
    (noJson : context.mode ≠ .json)
    (supplied : machine.Supplies machine.session.input sources texts) :
    ∃ reports after, (transformSources context options engine sources).Gives machine reports after ∧
      Machine.output after = Machine.output machine ++ String.join (texts.map engine.newCss) := by
  induction sources generalizing machine texts with
  | nil =>
    obtain rfl := List.eq_nil_of_length_eq_zero supplied.length_eq.symm
    exact ⟨[], machine, rfl, by simp⟩
  | cons source sources ih =>
    cases texts with
    | nil => cases supplied.length_eq
    | cons text texts =>
      obtain ⟨middle, read, same, rest⟩ := exists_gives_readSource supplied
      obtain ⟨report, printed, first, scene⟩ := exists_gives_transformSource_print unchecked output
        inPlace noJson engine read
      have rest : printed.Supplies printed.session.input sources texts := by
        rw [show printed.session.input = middle.session.input from congrArg Scene.input scene]
        exact rest.congr (congrArg Scene.files scene) (congrArg Scene.refusal scene)
      obtain ⟨reports, after, given, out⟩ := ih rest
      refine ⟨_, after, first.bind (given.bind (gives_pure _ _)), ?_⟩
      have here : Machine.output printed = Machine.output machine ++ engine.newCss text :=
        (congrArg Scene.output scene).trans (congrArg (· ++ engine.newCss text)
          (congrArg Scene.output same))
      rw [out, here, List.map_cons, String.join_cons, String.append_assoc]

theorem concludeTransform_print (mode : OutputMode) (unchecked : options.check = false)
    (output : options.output = none) (inPlace : options.inPlace = false) (noJson : mode ≠ .json)
    (reports : List FileReport) :
    concludeTransform mode options reports = (pure () : Task (StateM Machine) Unit) := by
  have noSummary : options.hasSummary = false := by
    simp [TransformOptions.hasSummary, unchecked, output, inPlace]
  unfold concludeTransform
  dsimp only
  rw [if_neg (by simp [noSummary]), if_neg (by simp [unchecked]), if_neg noJson]

theorem concludeTransform_json (unchecked : options.check = false) (reports : List FileReport) :
    concludeTransform .json options reports =
      (print (Response.result (transformJson false reports)).line :
        Task (StateM Machine) Unit) := by
  unfold concludeTransform
  dsimp only
  rw [if_neg (by simp), if_neg (by simp [unchecked]), unchecked]
  rfl

end

end Task

/-! ### Reports -/

theorem FileReport.member?_css (r : FileReport) :
    r.json.member? "css" = r.css.map Json.string := by
  obtain ⟨name, changes, writtenTo, css⟩ := r
  cases writtenTo with
  | none =>
    cases css with
    | none | some css => rfl
  | some path =>
    cases css with
    | none | some css => rfl

theorem member?_files (check : Bool) (reports : List FileReport) :
    ((Response.result (transformJson check reports)).json.member? "result").bind
      (Json.member? "files") = some (.array (reports.map FileReport.json)) := rfl

theorem css_fullReports (engine : Engine) {sources : List Source} {texts : List String}
    (h : sources.length = texts.length) :
    ((List.zipWith (fun source text =>
        Task.fullReport source (Stylesheet.process engine text.toList).value) sources texts).map
      FileReport.json).map (Json.member? "css") =
      texts.map fun text => some (.string (engine.newCss text)) := by
  induction sources generalizing texts with
  | nil =>
    obtain rfl := List.eq_nil_of_length_eq_zero h.symm
    rfl
  | cons source sources ih =>
    cases texts with
    | nil => cases h
    | cons text texts =>
      rw [List.zipWith_cons_cons, List.map_cons, List.map_cons, ih (Nat.succ.inj h),
        FileReport.member?_css]
      rfl

/-! ### Runs -/

namespace Source

theorem ofOperands_eq_map {paths : List Path} (files : Source.input ∉ ofOperands paths) :
    ofOperands paths = paths.map .file := by
  cases paths with
  | nil => exact absurd List.mem_cons_self files
  | cons path paths =>
    rw [ofOperands, if_neg (by simp)] at files ⊢
    refine List.map_congr_left fun other mem => ?_
    split
    · rename_i dash
      exact absurd (List.mem_map.mpr ⟨other, mem, by rw [if_pos dash]⟩) files
    · rfl

end Source

namespace Machine

theorem Supplies.opens {machine : Machine} {input : Content} {paths : List Path}
    {texts : List String} (h : machine.Supplies input (paths.map .file) texts)
    (writes : ∀ path ∈ paths, machine.Grants (.writeFile path)) :
    (∀ path ∈ paths, machine.Opens path) ∧
      List.Forall₂ (fun path text => machine.session.files.read path = .ok (.text text))
        paths texts := by
  induction paths generalizing input texts with
  | nil =>
    cases h
    exact ⟨fun _ mem => absurd mem List.not_mem_nil, .nil⟩
  | cons path paths ih =>
    rw [List.map_cons] at h
    cases h with
    | file granted read rest =>
      obtain ⟨here, later⟩ := List.forall_mem_cons.mp writes
      obtain ⟨opens, holds⟩ := ih rest later
      exact ⟨List.forall_mem_cons.mpr ⟨⟨granted, here, _, read⟩, opens⟩, .cons read holds⟩

end Machine

namespace Invocation

variable {environment : Environment} {globals : GlobalOptions} {options : TransformOptions}
  {machine : Machine} {engine : Engine} {texts : List String}

theorem task_transform (environment : Environment) (globals : GlobalOptions)
    (options : TransformOptions) :
    ((mk globals (.transform options)).task environment : Task (StateM Machine) Unit) =
      Task.transform ⟨environment, globals⟩ options := rfl

theorem store_runOn_error {invocation : Invocation} {failure : Failure} {after : Machine}
    (h : (invocation.task environment).on machine = (.error failure, after)) :
    (invocation.runOn environment machine).2.store = after.store := by
  obtain ⟨output, errors, report⟩ := exists_reportFailure invocation.globals failure
  rw [runOn_error h, report]
  rfl

/-- Files stay as they are unless there is a target for the new stylesheet. -/
theorem store_runOn_transform
    (dry : options.check = true ∨ options.output = none ∧ options.inPlace = false) :
    ((mk globals (.transform options)).runOn environment machine).2.store = machine.store := by
  have kept := Task.keeps_store_transform dry ⟨environment, globals⟩ machine
  cases h : ((mk globals (.transform options)).task environment).on machine with
  | mk result after =>
    have same : after.store = machine.store := by
      rw [← kept]
      exact congrArg (fun run => run.2.store) h.symm
    cases result with
    | ok nothing =>
      rw [runOn_ok h]
      exact same
    | error failure => rw [store_runOn_error h, same]

theorem exists_supplies {rewrite : RewriteOptions} {sources : List Source}
    (built : ((Task.buildEngine ⟨environment, globals⟩ rewrite).on machine).1 = .ok engine)
    (supplied : machine.Supplies machine.session.input sources texts) :
    ∃ middle, (Task.buildEngine ⟨environment, globals⟩ rewrite).on machine = (.ok engine, middle) ∧
      middle.scene = machine.scene ∧ middle.Supplies middle.session.input sources texts := by
  obtain ⟨middle, built, same⟩ := Task.exists_on_buildEngine built
  have input : middle.session.input = machine.session.input :=
    congrArg Machine.Scene.input same
  refine ⟨middle, built, same, ?_⟩
  rw [input]
  exact supplied.congr (congrArg Machine.Scene.files same) (congrArg Machine.Scene.refusal same)

theorem runOn_transform {middle after last : Machine} {reports : List FileReport}
    (built : (Task.buildEngine ⟨environment, globals⟩ options.rewrite).on machine =
      (.ok engine, middle))
    (files : (options.inPlace && (Source.ofOperands options.files).contains .input) = false)
    (few : (options.output.isSome && decide (1 < (Source.ofOperands options.files).length)) =
      false)
    (given : (Task.transformSources ⟨environment, globals⟩ options engine
      (Source.ofOperands options.files)).Gives middle reports after)
    (concluded : (Task.concludeTransform (Context.mk environment globals).mode options
      reports).Gives after () last) :
    (mk globals (.transform options)).runOn environment machine = (0, last) := by
  have whole : (Task.transform ⟨environment, globals⟩ options).Gives machine () last :=
    (Task.on_transform built files few).trans (given.bind concluded)
  exact runOn_ok whole

section

variable (built : ((Task.buildEngine ⟨environment, globals⟩ options.rewrite).on machine).1 =
    .ok engine)
  (supplied : machine.Supplies machine.session.input (Source.ofOperands options.files) texts)
  (unchecked : options.check = false)
include built supplied unchecked

theorem runOn_print (output : options.output = none) (inPlace : options.inPlace = false)
    (noJson : (Context.mk environment globals).mode ≠ .json) :
    ∃ last, (mk globals (.transform options)).runOn environment machine = (0, last) ∧
      last.output = machine.output ++ String.join (texts.map engine.newCss) := by
  obtain ⟨middle, built, same, supplied⟩ := exists_supplies built supplied
  obtain ⟨reports, last, given, printed⟩ := Task.exists_gives_transformSources_print engine
    unchecked output inPlace noJson supplied
  have concluded := Task.concludeTransform_print (Context.mk environment globals).mode unchecked
    output inPlace noJson reports
  refine ⟨last, runOn_transform built (by simp [inPlace]) (by simp [output]) given ?_, ?_⟩
  · rw [concluded]
    exact Task.gives_pure _ _
  · rw [printed, show middle.output = machine.output from congrArg Machine.Scene.output same]

theorem runOn_json (output : options.output = none) (inPlace : options.inPlace = false)
    (json : (Context.mk environment globals).mode = .json) :
    ∃ last reports, (mk globals (.transform options)).runOn environment machine = (0, last) ∧
      last.output = machine.output ++ (Response.result (transformJson false reports)).line ∧
      (reports.map FileReport.json).map (Json.member? "css") =
        texts.map fun text => some (.string (engine.newCss text)) := by
  obtain ⟨middle, built, same, supplied⟩ := exists_supplies built supplied
  obtain ⟨after, given, same'⟩ := Task.exists_gives_transformSources ⟨environment, globals⟩
    (fun _ _ => Task.deliver_json unchecked output inPlace json) engine supplied
  let reports := List.zipWith (fun source text =>
    Task.fullReport source (Stylesheet.process engine text.toList).value)
    (Source.ofOperands options.files) texts
  let line := (Response.result (transformJson false reports)).line
  refine ⟨((Host.print line : StateM Machine Unit) after).2, reports,
    runOn_transform built (by simp [inPlace]) (by simp [output]) given ?_, ?_,
    css_fullReports engine supplied.length_eq⟩
  · rw [json, Task.concludeTransform_json unchecked]
    rfl
  · have before : after.output = machine.output :=
      (show after.output = middle.output from congrArg Machine.Scene.output same').trans
        (congrArg Machine.Scene.output same)
    change after.output ++ line = _
    rw [before]

theorem runOn_output {out : Path} {text : String} {files : FileStore}
    (output : options.output = some out) (inPlace : options.inPlace = false)
    (single : texts = [text]) (granted : machine.Grants (.writeFile out))
    (written : machine.session.files.write out (engine.newCss text) = .ok files) :
    ∃ last, (mk globals (.transform options)).runOn environment machine = (0, last) ∧
      last.store = (files, machine.writes ++ [out]) := by
  obtain ⟨middle, built, same, supplied⟩ := exists_supplies built supplied
  subst single
  have one := supplied.length_eq
  cases hsources : Source.ofOperands options.files with
  | nil => rw [hsources] at one; cases one
  | cons source sources =>
    rw [hsources] at one supplied
    obtain rfl := List.eq_nil_of_length_eq_zero (Nat.succ.inj one)
    obtain ⟨m₁, delivered, same', -⟩ :=
      Task.on_transformSource ⟨environment, globals⟩ options engine supplied
    have scene : m₁.lasting = machine.lasting :=
      same'.trans (congrArg (fun seen : Machine.Scene => { seen with input := .text "" }) same)
    have held : m₁.session.files = machine.session.files := congrArg Machine.Scene.files scene
    have refusal : m₁.refusal = machine.refusal := congrArg Machine.Scene.refusal scene
    have target : options.target? source (Stylesheet.process engine text.toList).value.isChanged =
        some out := by
      rw [Task.target?_of_not_and (by rw [inPlace]; rfl), output]
    rw [← held] at written
    obtain ⟨report, m₂, given, wrote⟩ :=
      Task.exists_gives_deliver_write unchecked target (granted.congr refusal _) written
    have first : (Task.transformSource ⟨environment, globals⟩ options engine source).Gives middle
        report m₂ := delivered.trans given
    obtain ⟨last, concluded, kept⟩ := Task.exists_gives_concludeTransform
      (Context.mk environment globals).mode [report] (.inl unchecked) m₂
    refine ⟨last, runOn_transform built (by simp [inPlace]) (by simp [hsources]) ?_ concluded, ?_⟩
    · rw [hsources]
      exact first.bind ((Task.gives_pure [] m₂).bind (Task.gives_pure [report] m₂))
    · have writes : m₁.writes = machine.writes := congrArg Machine.Scene.writes scene
      rw [kept, ← writes]
      exact congrArg Machine.Scene.store wrote

theorem runOn_inPlace (inPlace : options.inPlace = true) (output : options.output = none)
    (files : Source.input ∉ Source.ofOperands options.files)
    (writes : ∀ path ∈ options.files, machine.Grants (.writeFile path)) :
    ∃ last, (mk globals (.transform options)).runOn environment machine = (0, last) ∧
      last.store = options.files.foldl engine.inPlace machine.store := by
  obtain ⟨middle, built, same, supplied⟩ := exists_supplies built supplied
  have sources := Source.ofOperands_eq_map files
  have refusal : middle.refusal = machine.refusal := congrArg Machine.Scene.refusal same
  rw [sources] at supplied
  obtain ⟨opens, -⟩ := supplied.opens fun path mem => (writes path mem).congr refusal
  obtain ⟨reports, after, given, store⟩ := Task.exists_gives_foldl_inPlace
    ⟨environment, globals⟩ unchecked inPlace output engine opens
  obtain ⟨last, concluded, kept⟩ := Task.exists_gives_concludeTransform
    (Context.mk environment globals).mode reports (.inl unchecked) after
  rw [← sources] at given
  refine ⟨last, runOn_transform built (by simp [files]) (by simp [output]) given concluded, ?_⟩
  rw [kept, store, show middle.store = machine.store from congrArg Machine.Scene.store same]

end

/-- Wherever a new stylesheet goes, it is the same text: printed stylesheets stand one after
another, a response has one for each source, and a file that is written holds it. A file that is
rewritten in place is not written if it has no range, and nothing else touches a file. -/
theorem runOn_transform_css (environment : Environment) (globals : GlobalOptions)
    (options : TransformOptions) (machine : Machine) :
    (options.check = true ∨ options.output = none ∧ options.inPlace = false →
      ((mk globals (.transform options)).runOn environment machine).2.store = machine.store) ∧
    ∀ engine texts,
      ((Task.buildEngine ⟨environment, globals⟩ options.rewrite).on machine).1 = .ok engine →
      machine.Supplies machine.session.input (Source.ofOperands options.files) texts →
      options.check = false →
      (options.output = none → options.inPlace = false →
        globals.json = false ∨ globals.quiet = true →
        ∃ last, (mk globals (.transform options)).runOn environment machine = (0, last) ∧
          last.output = machine.output ++ String.join (texts.map engine.newCss)) ∧
      (options.output = none → options.inPlace = false →
        globals.json = true → globals.quiet = false →
        ∃ last line response files,
          (mk globals (.transform options)).runOn environment machine = (0, last) ∧
          last.output = machine.output ++ (line ++ "\n") ∧ Json.read? line = some response ∧
          (response.member? "result").bind (Json.member? "files") = some (.array files) ∧
          files.map (Json.member? "css") =
            texts.map fun text => some (.string (engine.newCss text))) ∧
      (∀ out text files, options.output = some out → options.inPlace = false → texts = [text] →
        machine.Grants (.writeFile out) →
        machine.session.files.write out (engine.newCss text) = .ok files →
        ∃ last, (mk globals (.transform options)).runOn environment machine = (0, last) ∧
          last.session.files.read out = .ok (.text (engine.newCss text)) ∧
          last.writes = machine.writes ++ [out]) ∧
      (options.inPlace = true → options.output = none →
        .input ∉ Source.ofOperands options.files →
        (∀ path ∈ options.files, machine.Grants (.writeFile path)) →
        (options.files.map machine.session.files.locate).Nodup →
        ∃ last, (mk globals (.transform options)).runOn environment machine = (0, last) ∧
          List.Forall₂ (fun path text =>
            last.session.files.read path = .ok (.text (engine.newCss text))) options.files texts ∧
          last.writes = machine.writes ++
            ((options.files.zip texts).filter fun entry => engine.changes entry.2).map Prod.fst) := by
  refine ⟨store_runOn_transform, fun engine texts built supplied unchecked => ?_⟩
  refine ⟨?print, ?json, ?output, ?inPlace⟩
  case print =>
    intro output inPlace noJson
    refine runOn_print built supplied unchecked output inPlace ?_
    rcases noJson with noJson | quiet
    · cases hquiet : globals.quiet with
      | false | true => simp [Context.mode, noJson, hquiet]
    · simp [Context.mode, quiet]
  case json =>
    intro output inPlace json loud
    obtain ⟨last, reports, run, printed, css⟩ :=
      runOn_json built supplied unchecked output inPlace (by simp [Context.mode, json, loud])
    exact ⟨last, _, _, _, run, printed, Json.read?_text _, member?_files false reports, css⟩
  case output =>
    intro out text files output inPlace single granted written
    obtain ⟨last, run, store⟩ :=
      runOn_output built supplied unchecked output inPlace single granted written
    have held : last.session.files = files := congrArg Prod.fst store
    refine ⟨last, run, ?_, congrArg Prod.snd store⟩
    rw [held]
    exact FileStore.read_write written
  case inPlace =>
    intro inPlace output files writes apart
    obtain ⟨last, run, store⟩ := runOn_inPlace built supplied unchecked inPlace output files writes
    rw [Source.ofOperands_eq_map files] at supplied
    obtain ⟨-, holds⟩ := supplied.opens writes
    have holds : List.Forall₂ (fun path text => machine.store.1.read path = .ok (.text text))
      options.files texts := holds
    obtain ⟨held, written⟩ := Engine.foldl_inPlace_apart engine holds apart
    rw [← store] at held written
    exact ⟨last, run, held, written⟩

/-- All ways out of a stylesheet with a range, which stands in the input and in a file. -/
theorem runOn_transform_css_width :
    (∃ last, (mk {} (.transform {})).runOn { home := some "/tmp" }
        { session := { files := ⟨[], []⟩, input := .text "@media (width > 1px)" } } = (0, last) ∧
      last.output = "@media (min-width: 2px)") ∧
    (∃ last line response files,
      (mk { json := true } (.transform { files := [⟨"a.css"⟩] })).runOn { home := some "/tmp" }
        (.holding "a.css" "@media (width > 1px)") = (0, last) ∧
      last.output = line ++ "\n" ∧ Json.read? line = some response ∧
      (response.member? "result").bind (Json.member? "files") = some (.array files) ∧
      files.map (Json.member? "css") = [some (.string "@media (min-width: 2px)")]) ∧
    (∃ last, (mk {} (.transform { files := [⟨"a.css"⟩], output := some ⟨"b.css"⟩ })).runOn
        { home := some "/tmp" } (.holding "a.css" "@media (width > 1px)") = (0, last) ∧
      last.session.files.read ⟨"b.css"⟩ = .ok (.text "@media (min-width: 2px)")) ∧
    ∃ last, (mk {} (.transform { files := [⟨"a.css"⟩], inPlace := true })).runOn
        { home := some "/tmp" } (.holding "a.css" "@media (width > 1px)") = (0, last) ∧
      last.session.files.read ⟨"a.css"⟩ = .ok (.text "@media (min-width: 2px)") := by
  have css : (Engine.mk (Grammar.ofBody none) {}).newCss "@media (width > 1px)" =
      "@media (min-width: 2px)" := by
    decide +kernel
  have held : (Machine.holding "a.css" "@media (width > 1px)").Supplies (.text "")
      [.file ⟨"a.css"⟩] ["@media (width > 1px)"] :=
    .file (fun _ => rfl) (by decide +kernel) .nil
  refine ⟨?print, ?json, ?output, ?inPlace⟩
  case print =>
    obtain ⟨-, routes⟩ := runOn_transform_css { home := some "/tmp" } {} {}
      { session := { files := ⟨[], []⟩, input := .text "@media (width > 1px)" } }
    obtain ⟨print, -⟩ := routes _ _ (Task.buildEngine_default rfl) (.input (fun _ => rfl) .nil) rfl
    obtain ⟨last, run, printed⟩ := print rfl rfl (.inl rfl)
    refine ⟨last, run, printed.trans ?_⟩
    rw [List.map_singleton, css]
    rfl
  case json =>
    obtain ⟨-, routes⟩ := runOn_transform_css { home := some "/tmp" } { json := true }
      { files := [⟨"a.css"⟩] } (.holding "a.css" "@media (width > 1px)")
    obtain ⟨-, json, -⟩ := routes _ _ (Task.buildEngine_default rfl) held rfl
    obtain ⟨last, line, response, files, run, printed, same⟩ := json rfl rfl rfl rfl
    rw [List.map_singleton, css] at same
    exact ⟨last, line, response, files, run, printed.trans String.empty_append, same⟩
  case output =>
    obtain ⟨-, routes⟩ := runOn_transform_css { home := some "/tmp" } {}
      { files := [⟨"a.css"⟩], output := some ⟨"b.css"⟩ } (.holding "a.css" "@media (width > 1px)")
    obtain ⟨-, -, output, -⟩ := routes _ _ (Task.buildEngine_default rfl) held rfl
    obtain ⟨last, run, written, -⟩ := output _ _ _ rfl rfl rfl (fun _ => rfl) rfl
    exact ⟨last, run, by rw [written, css]⟩
  case inPlace =>
    obtain ⟨-, routes⟩ := runOn_transform_css { home := some "/tmp" } {}
      { files := [⟨"a.css"⟩], inPlace := true } (.holding "a.css" "@media (width > 1px)")
    obtain ⟨-, -, -, inPlace⟩ := routes _ _ (Task.buildEngine_default rfl) held rfl
    obtain ⟨last, run, replaced, -⟩ := inPlace rfl rfl (by decide) (fun _ _ _ => rfl) (by simp)
    refine ⟨last, run, ?_⟩
    rw [← css]
    exact (List.forall₂_cons.mp replaced).1

end Invocation

end MediaRange
