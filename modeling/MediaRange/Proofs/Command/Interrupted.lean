import MediaRange.Proofs.Command.Asking
import MediaRange.Proofs.Command.Checking

/-!
# Rewrites in place that are interrupted

A rewrite in place stops at the first file that cannot be read or written. By
`replacing_leaves_prefix` the files are then as if the run had been asked for the files before that
one only, and a run that has no engine or is given the input stops before it asks for any stylesheet.
-/

namespace MediaRange

/-! ### What becomes of the files -/

/-- The path leads to a text. -/
def FileStore.HoldsText (store : FileStore) (path : Path) : Prop :=
  ∃ text, store.read path = .ok (.text text)

/-- The path leads to the location. -/
def FileStore.LeadsTo (store : FileStore) (location : Location) (path : Path) : Prop :=
  store.locate path = .ok location

instance (store : FileStore) (location : Location) : DecidablePred (store.LeadsTo location) :=
  fun path => decidable_of_iff ((store.locate path).toOption = some location) <| by
    rw [FileStore.LeadsTo]
    cases store.locate path with
    | error cause => simp [Except.toOption]
    | ok other => simp [Except.toOption]

namespace Engine

/-- The files before and after some are rewritten in place. A file that is named more than once is
rewritten as often, and each time as a whole. -/
structure Replaces (engine : Engine) (paths : List Path) (before after : FileStore) : Prop where
  named : ∀ path ∈ paths, ∃ location text, before.LeadsTo location path ∧
    before.node? location = some (.file (.text text)) ∧
    after.node? location =
      some (.file (.text (engine.newCss^[paths.countP fun p => before.LeadsTo location p] text)))
  other : ∀ location, (∀ path ∈ paths, ¬before.LeadsTo location path) →
    after.node? location = before.node? location

variable {engine : Engine} {store : FileStore × List Path} {path other : Path} {text : String}

theorem node?_inPlace (engine : Engine) (held : store.1.read path = .ok (.text text))
    (location : Location) :
    (engine.inPlace store path).1.node? location =
      if store.1.LeadsTo location path then some (.file (.text (engine.newCss text)))
      else store.1.node? location := by
  obtain ⟨target, located, node, -⟩ := FileStore.read_eq_ok_iff.mp held
  have leads : store.1.LeadsTo location path ↔ location = target := by
    rw [FileStore.LeadsTo, located, Except.ok.injEq, eq_comm]
  rw [if_congr leads rfl rfl]
  cases changed : engine.changes text with
  | false =>
    rw [inPlace_unchanged held changed, newCss_of_unchanged changed]
    split
    · rename_i here
      rw [here, node]
    · rfl
  | true =>
    obtain ⟨target', located', -, -, step⟩ := exists_inPlace_changed held changed
    rw [located] at located'
    cases located'
    rw [step, FileStore.node?_put_file (free_of_node? node)]

theorem leadsTo_inPlace (engine : Engine) (store : FileStore × List Path) (path : Path) :
    (engine.inPlace store path).1.LeadsTo = store.1.LeadsTo := by
  unfold FileStore.LeadsTo
  rw [locate_inPlace]

theorem holdsText_inPlace (engine : Engine) (store : FileStore × List Path) (path other : Path) :
    (engine.inPlace store path).1.HoldsText other ↔ store.1.HoldsText other := by
  constructor
  · rintro ⟨text, held⟩
    obtain ⟨location, located, node, noSlash⟩ := FileStore.read_eq_ok_iff.mp held
    rw [locate_inPlace] at located
    rcases inPlace_cases engine store path with same | ⟨written, old, -, node', step⟩
    · rw [same] at held
      exact ⟨text, held⟩
    · by_cases here : location = written
      · subst here
        exact ⟨old, FileStore.read_eq_ok_iff.mpr ⟨location, located, node', noSlash⟩⟩
      · rw [step, FileStore.node?_put_file (free_of_node? node'), if_neg here] at node
        exact ⟨text, FileStore.read_eq_ok_iff.mpr ⟨location, located, node, noSlash⟩⟩
  · rintro ⟨text, held⟩
    exact read_inPlace engine path held

section

variable {paths : List Path} (holds : ∀ path ∈ paths, store.1.HoldsText path)
include holds

theorem node?_foldl_inPlace_other {location : Location}
    (away : ∀ path ∈ paths, ¬store.1.LeadsTo location path) :
    (paths.foldl engine.inPlace store).1.node? location = store.1.node? location := by
  induction paths generalizing store with
  | nil => rfl
  | cons path paths ih =>
    obtain ⟨⟨text, held⟩, holds⟩ := List.forall_mem_cons.mp holds
    obtain ⟨here, away⟩ := List.forall_mem_cons.mp away
    rw [List.foldl_cons, ih, node?_inPlace engine held, if_neg here]
    · exact fun other mem => (holdsText_inPlace engine store path other).mpr (holds other mem)
    · rw [leadsTo_inPlace]
      exact away

theorem node?_foldl_inPlace {location : Location}
    (node : store.1.node? location = some (.file (.text text))) :
    (paths.foldl engine.inPlace store).1.node? location =
      some (.file (.text
        (engine.newCss^[paths.countP fun p => store.1.LeadsTo location p] text))) := by
  induction paths generalizing store text with
  | nil => exact node
  | cons path paths ih =>
    obtain ⟨⟨text', held⟩, holds⟩ := List.forall_mem_cons.mp holds
    have later : ∀ other ∈ paths, (engine.inPlace store path).1.HoldsText other :=
      fun other mem => (holdsText_inPlace engine store path other).mpr (holds other mem)
    have step := node?_inPlace engine held location
    have count : paths.countP (fun p => (engine.inPlace store path).1.LeadsTo location p) =
        paths.countP fun p => store.1.LeadsTo location p :=
      List.countP_congr fun p _ => by simp [leadsTo_inPlace]
    rw [List.foldl_cons]
    by_cases here : store.1.LeadsTo location path
    · obtain ⟨target, located, node', -⟩ := FileStore.read_eq_ok_iff.mp held
      obtain rfl : target = location := Except.ok.inj (located.symm.trans here)
      rw [node] at node'
      cases node'
      rw [if_pos here] at step
      rw [ih later step, count, List.countP_cons_of_pos (by simpa using here),
        Function.iterate_succ_apply]
    · rw [if_neg here, node] at step
      rw [ih later step, count, List.countP_cons_of_neg (by simpa using here)]

theorem replaces_foldl_inPlace (engine : Engine) :
    engine.Replaces paths store.1 (paths.foldl engine.inPlace store).1 where
  named path mem := by
    obtain ⟨text, held⟩ := holds path mem
    obtain ⟨location, located, node, -⟩ := FileStore.read_eq_ok_iff.mp held
    exact ⟨location, text, located, node, node?_foldl_inPlace holds node⟩
  other _ away := node?_foldl_inPlace_other holds away

end

end Engine

/-! ### One file -/

/-- The file at the path could not be read, or could not be written. -/
def Failure.StopsAt (failure : Failure) (path : Path) : Prop :=
  ∃ cause, failure = .sourceUnreadable (.file path) cause ∨ failure = .outputUnwritable path cause

theorem Failure.StopsAt.kind {failure : Failure} {path : Path} (h : failure.StopsAt path) :
    failure.kind = .files := by
  obtain ⟨cause, rfl | rfl⟩ := h
  · rfl
  · rfl

namespace Task

open Machine

variable {machine : Machine} {path : Path}

/-- All files are rewritten, each of which holds a text in the first place. -/
structure Completes (context : Context) (options : TransformOptions) (engine : Engine)
    (paths : List Path) (machine after : Machine) : Prop where
  gives : ∃ reports,
    (transformSources context options engine (paths.map .file)).Gives machine reports after
  store : after.store = paths.foldl engine.inPlace machine.store
  holds : ∀ path ∈ paths, machine.store.1.HoldsText path

theorem transformSources_files (context : Context) (options : TransformOptions) (engine : Engine)
    (sources : List Source) (files : List Path) :
    (transformSources context { options with files := files } engine sources :
      Task (StateM Machine) (List FileReport)) =
        transformSources context options engine sources := by
  induction sources with
  | nil => rfl
  | cons source sources ih =>
    unfold transformSources
    rw [ih]
    rfl

/-- It does not matter which other files the run was asked for. -/
theorem Completes.files {context : Context} {options : TransformOptions} {engine : Engine}
    {paths : List Path} {machine after : Machine}
    (h : Completes context options engine paths machine after) (files : List Path) :
    Completes context { options with files := files } engine paths machine after where
  gives := by
    rw [transformSources_files]
    exact h.gives
  store := h.store
  holds := h.holds

section

variable {options : TransformOptions} (unchecked : options.check = false)
include unchecked

theorem deliver_write_cases (mode : OutputMode) {source : Source} {processed : Processed}
    {files : FileStore} (target : options.target? source processed.isChanged = some path)
    (written : machine.session.files.write path (String.ofList processed.css) = .ok files) :
    (∃ report after, (deliver mode options source processed).Gives machine report after ∧
        after.store = (files, machine.writes ++ [path])) ∨
      ∃ cause after, (deliver mode options source processed : Task (StateM Machine) FileReport).on
          machine = (.error (.outputUnwritable path cause), after) ∧
        after.session.files = machine.session.files := by
  cases refused : machine.refusal machine.asked (.writeFile path) with
  | none =>
    obtain ⟨report, after, given, scene⟩ :=
      exists_gives_deliver_write unchecked target refused written
    exact .inl ⟨report, after, given, congrArg Scene.store scene⟩
  | some cause =>
    let asking : Machine := { machine with writes := machine.writes ++ [path] }
    let after : Machine := { asking with asked := machine.asked + 1 }
    have asks : asking.refusal asking.asked (.writeFile path) = some cause := refused
    have write : (Host.writeFile path (String.ofList processed.css) :
        StateM Machine (Except FileError Unit)) machine = (.error cause, after) :=
      ask_refused asks Except.error _
    have write : (attempt (.outputUnwritable path)
        (Host.writeFile path (String.ofList processed.css)) : Task (StateM Machine) Unit).on
          machine = (.error (.outputUnwritable path cause), after) := by
      rw [on_attempt, write]
      rfl
    refine .inr ⟨cause, after, ?_, rfl⟩
    unfold deliver
    dsimp only
    rw [if_neg (by simp [unchecked]), target]
    exact on_bind_error write

variable (inPlace : options.inPlace = true) (output : options.output = none)
include inPlace output

/-- A file is rewritten as a whole, or the task stops there and the files stay as they are. -/
theorem transformSource_inPlace (context : Context) (engine : Engine) (path : Path)
    (machine : Machine) :
    (∃ report after, (transformSource context options engine (.file path)).Gives machine report
        after ∧
      after.store = engine.inPlace machine.store path ∧ machine.store.1.HoldsText path) ∨
    ∃ failure after, (transformSource context options engine (.file path) :
        Task (StateM Machine) FileReport).on machine = (.error failure, after) ∧
      failure.StopsAt path ∧ after.store.1 = machine.store.1 := by
  rcases readText_cases (.sourceUnreadable (.file path)) path machine with
    ⟨text, after, read, held, same⟩ | ⟨cause, after, failed, same⟩
  · have read : (readSource (.file path)).Gives machine text after := read
    obtain ⟨middle, delivered, same'⟩ := on_transformSource_read context options engine read
    have store : middle.store = machine.store := congrArg Scene.store (same'.trans same)
    have held : machine.store.1.read path = .ok (.text text) := held
    simp only [Gives, delivered]
    cases changed : engine.changes text with
    | false =>
      rw [deliver_unchanged unchecked inPlace output changed]
      refine .inl ⟨_, middle, gives_pure _ _, ?_, text, held⟩
      rw [Engine.inPlace_unchanged held changed, store]
    | true =>
      obtain ⟨location, -, -, written, step⟩ := Engine.exists_inPlace_changed held changed
      have target : options.target? (.file path)
          (Stylesheet.process engine text.toList).value.isChanged = some path :=
        target?_inPlace inPlace changed
      rw [← store] at written
      rcases deliver_write_cases unchecked context.mode target written with
        ⟨report, after, given, wrote⟩ | ⟨cause, after, failed, kept⟩
      · refine .inl ⟨report, after, given, ?_, text, held⟩
        rw [wrote, step, ← store]
        rfl
      · refine .inr ⟨_, after, failed, ⟨cause, .inr rfl⟩, ?_⟩
        rw [← store]
        exact kept
  · refine .inr ⟨_, after, ?_, ⟨cause, .inl rfl⟩, congrArg Scene.files same⟩
    exact on_bind_error failed

omit unchecked inPlace output in
theorem Completes.cons {context : Context} {engine : Engine} {paths : List Path}
    {middle after : Machine} {report : FileReport}
    (given : (transformSource context options engine (.file path)).Gives machine report middle)
    (store : middle.store = engine.inPlace machine.store path)
    (held : machine.store.1.HoldsText path)
    (rest : Completes context options engine paths middle after) :
    Completes context options engine (path :: paths) machine after where
  gives := by
    obtain ⟨reports, given'⟩ := rest.gives
    exact ⟨report :: reports, given.bind (given'.bind (gives_pure _ _))⟩
  store := by rw [rest.store, store, List.foldl_cons]
  holds := by
    refine List.forall_mem_cons.mpr ⟨held, fun other mem => ?_⟩
    have held' := rest.holds other mem
    rw [store] at held'
    exact (Engine.holdsText_inPlace engine machine.store path other).mp held'

/-- All files are rewritten, or only those before the first one that the task stops at. -/
theorem transformSources_inPlace (context : Context) (engine : Engine) (paths : List Path)
    (machine : Machine) :
    (∃ after, Completes context options engine paths machine after) ∨
      ∃ done path rest middle failure after, paths = done ++ path :: rest ∧
        Completes context options engine done machine middle ∧
        (transformSources context options engine (paths.map .file) :
          Task (StateM Machine) (List FileReport)).on machine = (.error failure, after) ∧
        failure.StopsAt path ∧ after.store.1 = middle.store.1 := by
  induction paths generalizing machine with
  | nil => exact .inl ⟨machine, ⟨[], rfl⟩, rfl, fun _ mem => absurd mem List.not_mem_nil⟩
  | cons path paths ih =>
    rcases transformSource_inPlace unchecked inPlace output context engine path machine with
      ⟨report, next, given, store, held⟩ | ⟨failure, after, failed, stops, kept⟩
    · rcases ih next with
        ⟨after, completes⟩ | ⟨done, stop, rest, middle, failure, after, rfl, completes, failed, last⟩
      · exact .inl ⟨after, completes.cons given store held⟩
      · refine .inr ⟨path :: done, stop, rest, middle, failure, after, rfl,
          completes.cons given store held, ?_, last⟩
        exact (on_bind_ok given).trans (on_bind_error failed)
    · exact .inr ⟨[], path, paths, machine, failure, after, rfl,
        ⟨⟨[], rfl⟩, rfl, fun _ mem => absurd mem List.not_mem_nil⟩, on_bind_error failed, stops, kept⟩

end

end Task

/-! ### Runs -/

namespace Invocation

variable {environment : Environment} {globals : GlobalOptions} {files : List Path}
  {rewrite : RewriteOptions} {machine : Machine} {engine : Engine}

/-- The run fails because of the arguments or the configuration before it comes to the stylesheets:
it leaves all files and the input alone, and it ends in the same way if everything but the
configuration file is refused. -/
structure EndsEarly (invocation : Invocation) (environment : Environment) (machine : Machine) :
    Prop where
  code : (invocation.runOn environment machine).1 = 3 ∨ (invocation.runOn environment machine).1 = 4
  store : (invocation.runOn environment machine).2.store = machine.store
  input : (invocation.runOn environment machine).2.session.input = machine.session.input
  asks : ∀ refusal : Nat → Operation → Option FileError,
    (∀ asked operation, (∃ place ∈ (invocation.context environment).configPlace?,
        operation = .contains place.path ∨ operation = .readFile place.path) →
      refusal asked operation = machine.refusal asked operation) →
    invocation.runOn environment { machine with refusal := refusal } =
      ((invocation.runOn environment machine).1,
        { (invocation.runOn environment machine).2 with refusal := refusal })

/-- Why a rewrite in place does not come to the stylesheets, by what building its engine gives. -/
inductive FailsEarly (files : List Path) : Except Failure Engine → Failure → Prop where
  | unbuilt (failure : Failure) : FailsEarly files (.error failure) failure
  | input (engine : Engine) (mem : .input ∈ Source.ofOperands files) :
    FailsEarly files (.ok engine) .inputInPlace

theorem on_replacing_early {failure : Failure}
    (fails : FailsEarly files ((Task.buildEngine ⟨environment, globals⟩ rewrite).on machine).1
      failure) :
    ((replacing globals files rewrite).task environment).on machine =
      (.error failure, ((Task.buildEngine ⟨environment, globals⟩ rewrite).on machine).2) := by
  rw [replacing, task_transform]
  unfold Task.transform
  dsimp only
  cases h : (Task.buildEngine ⟨environment, globals⟩ rewrite).on machine with
  | mk result after =>
    rw [h] at fails
    dsimp only at fails ⊢
    cases fails with
    | unbuilt failure => rw [Task.on_bind_error h]
    | input engine mem =>
      rw [Task.on_bind_ok h, if_pos (by simpa using mem)]
      rfl

theorem kind_of_failsEarly {failure : Failure}
    (fails : FailsEarly files ((Task.buildEngine ⟨environment, globals⟩ rewrite).on machine).1
      failure) : failure.kind = .arguments ∨ failure.kind = .configuration := by
  cases built : ((Task.buildEngine ⟨environment, globals⟩ rewrite).on machine).1 with
  | error cause =>
    rw [built] at fails
    cases fails
    exact Task.failsWith_buildEngine ⟨environment, globals⟩ rewrite machine _ built
  | ok engine =>
    rw [built] at fails
    cases fails
    exact .inl rfl

theorem endsEarly_of_failsEarly {failure : Failure}
    (fails : FailsEarly files ((Task.buildEngine ⟨environment, globals⟩ rewrite).on machine).1
      failure) : (replacing globals files rewrite).EndsEarly environment machine := by
  have failed := on_replacing_early fails
  have scene := Task.keeps_scene_buildEngine ⟨environment, globals⟩ rewrite machine
  obtain ⟨output, errors, report⟩ :=
    exists_reportFailure (replacing globals files rewrite).globals failure
  refine ⟨?code, ?_, ?input, fun refusal agree => ?asks⟩
  case code =>
    rw [runOn_error failed]
    exact FailureKind.code_of_mistake (kind_of_failsEarly fails)
  case input =>
    rw [runOn_error failed, report]
    exact congrArg Machine.Scene.input scene
  case asks =>
    have same := (Task.asksOnly_buildEngine ⟨environment, globals⟩
      (fun place located => ⟨place, located, .inl rfl⟩)
      (fun place located => ⟨place, located, .inr rfl⟩) rewrite).same machine refusal agree
    have failed' : ((replacing globals files rewrite).task environment).on
        { machine with refusal := refusal } = (.error failure, _) :=
      on_replacing_early (by rw [same]; exact fails)
    rw [same] at failed'
    rw [runOn_error failed, runOn_error failed', report, report]
  · rw [store_runOn_error failed]
    exact congrArg Machine.Scene.store scene

theorem notMem_ofOperands_left {done rest : List Path} (some : done ≠ [])
    (listed : .input ∉ Source.ofOperands (done ++ rest)) : .input ∉ Source.ofOperands done := by
  intro mem
  apply listed
  rw [Source.ofOperands, if_neg (by simpa using some)] at mem
  rw [Source.ofOperands, if_neg (by simp [some]), List.map_append]
  exact List.mem_append_left _ mem

theorem runOn_completes {middle after : Machine}
    (built : (Task.buildEngine ⟨environment, globals⟩ rewrite).on machine = (.ok engine, middle))
    (listed : .input ∉ Source.ofOperands files)
    (completes : Task.Completes ⟨environment, globals⟩
      { files := files, inPlace := true, rewrite := rewrite } engine files middle after) :
    ∃ last, (replacing globals files rewrite).runOn environment machine = (0, last) ∧
      last.store = after.store := by
  obtain ⟨reports, given⟩ := completes.gives
  have unchecked : (TransformOptions.mk files none true false rewrite).check = false := rfl
  obtain ⟨last, concluded, kept⟩ := Task.exists_gives_concludeTransform
    (Context.mk environment globals).mode reports (.inl unchecked) after
  rw [← Source.ofOperands_eq_map listed] at given
  exact ⟨last, runOn_transform built (by simp [listed]) rfl given concluded, kept⟩

/-- A rewrite in place that has no engine, or is given the input, ends before it comes to the
stylesheets. Else it rewrites all files, or it stops at one that cannot be read or written: then
every file is as a run that is given only the paths before that one leaves it, so what those paths
lead to holds its whole new text, and all else is as it was. -/
theorem replacing_leaves_prefix (environment : Environment) (globals : GlobalOptions)
    (files : List Path) (rewrite : RewriteOptions) (machine : Machine) :
    ((∀ engine, ((Task.buildEngine ⟨environment, globals⟩ rewrite).on machine).1 ≠ .ok engine) ∨
        .input ∈ Source.ofOperands files →
      (replacing globals files rewrite).EndsEarly environment machine) ∧
    ∀ engine, ((Task.buildEngine ⟨environment, globals⟩ rewrite).on machine).1 = .ok engine →
      .input ∉ Source.ofOperands files →
      (∃ last, (replacing globals files rewrite).runOn environment machine = (0, last) ∧
        last.store = files.foldl engine.inPlace machine.store ∧
        engine.Replaces files machine.session.files last.session.files) ∨
      ∃ done path rest failure last, files = done ++ path :: rest ∧
        (((replacing globals files rewrite).task environment).on machine).1 = .error failure ∧
        failure.StopsAt path ∧
        (replacing globals files rewrite).runOn environment machine = (5, last) ∧
        last.session.files = (done.foldl engine.inPlace machine.store).1 ∧
        engine.Replaces done machine.session.files last.session.files ∧
        (done ≠ [] → ∃ shorter,
          (replacing globals done rewrite).runOn environment machine = (0, shorter) ∧
          shorter.session.files = last.session.files) := by
  refine ⟨fun early => ?early, fun engine built listed => ?_⟩
  case early =>
    cases built : ((Task.buildEngine ⟨environment, globals⟩ rewrite).on machine).1 with
    | error failure =>
      exact endsEarly_of_failsEarly (by rw [built]; exact .unbuilt failure)
    | ok engine =>
      have mem := early.resolve_left fun none => none engine built
      exact endsEarly_of_failsEarly (by rw [built]; exact .input engine mem)
  obtain ⟨middle, built, same⟩ := Task.exists_on_buildEngine built
  let options : TransformOptions := { files := files, inPlace := true, rewrite := rewrite }
  have store : middle.store = machine.store := congrArg Machine.Scene.store same
  have transform : (Task.transform ⟨environment, globals⟩ options).on machine =
      (Task.transformSources ⟨environment, globals⟩ options engine (Source.ofOperands files) >>=
        Task.concludeTransform (Context.mk environment globals).mode options).on middle :=
    Task.on_transform built (by simp [options, listed]) rfl
  have unchecked : options.check = false := rfl
  have inPlace : options.inPlace = true := rfl
  have output : options.output = none := rfl
  rcases Task.transformSources_inPlace unchecked inPlace output ⟨environment, globals⟩ engine files
    middle with
    ⟨after, completes⟩ |
      ⟨done, path, rest, halfway, failure, after, split, completes, failed, stops, kept⟩
  · obtain ⟨last, run, same⟩ := runOn_completes built listed completes
    rw [completes.store, store] at same
    have replaces := Engine.replaces_foldl_inPlace completes.holds engine
    rw [store, ← same] at replaces
    exact .inl ⟨last, run, same, replaces⟩
  · rw [Source.ofOperands_eq_map listed, Task.on_bind_error failed, ← task_transform] at transform
    have run : (replacing globals files rewrite).runOn environment machine = (failure.kind.code, _) :=
      runOn_error transform
    have same : ((replacing globals files rewrite).runOn environment machine).2.store = after.store :=
      store_runOn_error transform
    rw [stops.kind] at run
    rw [run] at same
    have held := (congrArg Prod.fst same).trans kept
    have replaces := Engine.replaces_foldl_inPlace completes.holds engine
    rw [← completes.store, store, ← held] at replaces
    refine .inr ⟨done, path, rest, failure, _, split, congrArg Prod.fst transform, stops, run,
      ?_, replaces, fun some => ?_⟩
    · rw [← store, ← completes.store]
      exact held
    · subst split
      obtain ⟨shorter, run', same'⟩ := runOn_completes built (notMem_ofOperands_left some listed)
        (completes.files done)
      exact ⟨shorter, run', (congrArg Prod.fst same').trans held.symm⟩

/-- The second file is missing, so the run leaves what a run on the paths before that leaves. With the
input among the operands it does not even come to the first file. -/
theorem replacing_leaves_prefix_missing :
    (∃ done path rest last shorter, [Path.mk "a.css", ⟨"b.css"⟩] = done ++ path :: rest ∧
      (replacing {} [⟨"a.css"⟩, ⟨"b.css"⟩] {}).runOn { home := some "/tmp" }
        (.holding "a.css" "@media (width > 1px)") = (5, last) ∧
      (replacing {} done {}).runOn { home := some "/tmp" }
        (.holding "a.css" "@media (width > 1px)") = (0, shorter) ∧
      shorter.session.files = last.session.files ∧
      last.session.files.read ⟨"a.css"⟩ = .ok (.text "@media (min-width: 2px)")) ∧
    (replacing {} [⟨"a.css"⟩, ⟨"-"⟩] {}).EndsEarly { home := some "/tmp" }
      (.holding "a.css" "@media (width > 1px)") := by
  obtain ⟨-, late⟩ := replacing_leaves_prefix { home := some "/tmp" } {} [⟨"a.css"⟩, ⟨"b.css"⟩] {}
    (.holding "a.css" "@media (width > 1px)")
  obtain ⟨early, -⟩ := replacing_leaves_prefix { home := some "/tmp" } {} [⟨"a.css"⟩, ⟨"-"⟩] {}
    (.holding "a.css" "@media (width > 1px)")
  refine ⟨?_, early (.inr (by decide))⟩
  obtain ⟨code, first⟩ :
      ((replacing {} [⟨"a.css"⟩, ⟨"b.css"⟩] {}).runOn { home := some "/tmp" }
        (.holding "a.css" "@media (width > 1px)")).1 = 5 ∧
      ((replacing {} [⟨"a.css"⟩, ⟨"b.css"⟩] {}).runOn { home := some "/tmp" }
        (.holding "a.css" "@media (width > 1px)")).2.session.files.read ⟨"a.css"⟩ =
          .ok (.text "@media (min-width: 2px)") := by
    decide +kernel
  rcases late _ (Task.buildEngine_default rfl) (by decide) with
    ⟨last, run, -⟩ | ⟨done, path, rest, -, last, split, -, -, run, held, -, shorter⟩
  · rw [run] at code
    cases code
  · rw [run] at first
    -- The first file has been changed, so it is not the one that the run stopped at.
    have some : done ≠ [] := by
      rintro rfl
      have old : (Machine.holding "a.css" "@media (width > 1px)").session.files.read ⟨"a.css"⟩ ≠
          .ok (.text "@media (min-width: 2px)") := by
        decide +kernel
      rw [held] at first
      exact old first
    obtain ⟨last', run', same⟩ := shorter some
    exact ⟨done, path, rest, last, last', split, run, run', same, first⟩

end Invocation

end MediaRange
