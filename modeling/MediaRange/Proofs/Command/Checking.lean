import MediaRange.Proofs.Command.Routes

/-!
# A check tells what a rewrite in place would do

A check and a rewrite in place read the same texts. The check finds a range in one of them exactly
if the rewrite changes a file: by `check_predicts_inPlace` its exit code can be relied on, for any
list of files, also one that names a file twice.
-/

namespace MediaRange

namespace Task

open Machine

theorem on_concludeTransform_found {options : TransformOptions} (check : options.check = true)
    {reports : List FileReport} (found : reports.any FileReport.isChanged = true)
    (mode : OutputMode) (machine : Machine) :
    ∃ failure after, (concludeTransform mode options reports).on machine = (.error failure, after) ∧
      failure.kind = .check := by
  have some : (options.check && decide (0 < reports.countP FileReport.isChanged)) = true := by
    rw [check, Bool.true_and, decide_eq_true_eq, List.countP_pos_iff]
    exact List.any_eq_true.mp found
  unfold concludeTransform
  dsimp only
  simp only [some, if_true]
  split
  · exact ⟨_, _, rfl, rfl⟩
  · exact ⟨_, _, rfl, rfl⟩

theorem any_plainReports (engine : Engine) {sources : List Source} {texts : List String}
    (h : sources.length = texts.length) :
    (List.zipWith (fun source text =>
        plainReport source (Stylesheet.process engine text.toList).value) sources texts).any
      FileReport.isChanged = texts.any engine.changes := by
  induction sources generalizing texts with
  | nil =>
    obtain rfl := List.eq_nil_of_length_eq_zero h.symm
    rfl
  | cons source sources ih =>
    cases texts with
    | nil => cases h
    | cons text texts =>
      rw [List.zipWith_cons_cons, List.any_cons, List.any_cons, ih (Nat.succ.inj h)]
      rfl

end Task

/-! ### Runs -/

namespace Invocation

variable {environment : Environment} {globals : GlobalOptions} {files : List Path}
  {rewrite : RewriteOptions} {machine : Machine} {engine : Engine}

def checking (globals : GlobalOptions) (files : List Path) (rewrite : RewriteOptions) :
    Invocation :=
  ⟨globals, .transform { files := files, check := true, rewrite := rewrite }⟩

def replacing (globals : GlobalOptions) (files : List Path) (rewrite : RewriteOptions) :
    Invocation :=
  ⟨globals, .transform { files := files, inPlace := true, rewrite := rewrite }⟩

theorem runOn_unbuilt (options : TransformOptions) {failure : Failure}
    (unbuilt : ((Task.buildEngine ⟨environment, globals⟩ options.rewrite).on machine).1 =
      .error failure) :
    ((mk globals (.transform options)).runOn environment machine).1 = failure.kind.code ∧
      ((mk globals (.transform options)).runOn environment machine).2.store = machine.store := by
  have same := Task.keeps_scene_buildEngine ⟨environment, globals⟩ options.rewrite machine
  cases h : (Task.buildEngine ⟨environment, globals⟩ options.rewrite).on machine with
  | mk result after =>
    rw [h] at unbuilt same
    dsimp only at unbuilt
    subst unbuilt
    have failed : ((mk globals (.transform options)).task environment).on machine =
        (.error failure, after) := by
      rw [task_transform]
      unfold Task.transform
      rw [Task.on_bind_error h]
    rw [store_runOn_error failed, runOn_error failed]
    exact ⟨rfl, congrArg Machine.Scene.store same⟩

section

variable (files : List Path) {failure : Failure}
  (unbuilt : ((Task.buildEngine ⟨environment, globals⟩ rewrite).on machine).1 = .error failure)
include unbuilt

theorem runOn_checking_unbuilt :
    ((checking globals files rewrite).runOn environment machine).1 = failure.kind.code :=
  (runOn_unbuilt { files := files, check := true, rewrite := rewrite } unbuilt).1

theorem runOn_replacing_unbuilt :
    ((replacing globals files rewrite).runOn environment machine).1 = failure.kind.code ∧
      ((replacing globals files rewrite).runOn environment machine).2.store = machine.store :=
  runOn_unbuilt { files := files, inPlace := true, rewrite := rewrite } unbuilt

end

section

variable (built : ((Task.buildEngine ⟨environment, globals⟩ rewrite).on machine).1 = .ok engine)
include built

theorem runOn_replacing_input (input : .input ∈ Source.ofOperands files) :
    ((replacing globals files rewrite).runOn environment machine).1 = 3 ∧
      ((replacing globals files rewrite).runOn environment machine).2.store = machine.store := by
  obtain ⟨middle, built, same⟩ := Task.exists_on_buildEngine built
  have failed : ((replacing globals files rewrite).task environment).on machine =
      (.error .inputInPlace, middle) := by
    rw [replacing, task_transform]
    unfold Task.transform
    rw [Task.on_bind_ok built]
    dsimp only
    rw [if_pos (by simpa using input)]
    rfl
  rw [store_runOn_error failed, runOn_error failed]
  exact ⟨rfl, congrArg Machine.Scene.store same⟩

theorem exists_runOn_checking (listed : .input ∉ Source.ofOperands files)
    (opens : ∀ path ∈ files, machine.Opens path) :
    ∃ texts, List.Forall₂ (fun path text => machine.session.files.read path = .ok (.text text))
        files texts ∧
      ((checking globals files rewrite).runOn environment machine).1 =
        if texts.any engine.changes then 2 else 0 := by
  obtain ⟨texts, supplied, holds⟩ := Machine.supplies_of_opens machine.session.input opens
  rw [← Source.ofOperands_eq_map listed] at supplied
  refine ⟨texts, holds, ?_⟩
  let options : TransformOptions := { files := files, check := true, rewrite := rewrite }
  have check : options.check = true := rfl
  obtain ⟨middle, built, -, supplied⟩ := exists_supplies built supplied
  obtain ⟨after, given, -⟩ := Task.exists_gives_transformSources ⟨environment, globals⟩
    (fun _ _ => Task.deliver_check check) engine supplied
  have transform : (Task.transform ⟨environment, globals⟩ options).on machine =
      (Task.transformSources ⟨environment, globals⟩ options engine (Source.ofOperands files) >>=
        Task.concludeTransform (Context.mk environment globals).mode options).on middle :=
    Task.on_transform built rfl rfl
  have found := Task.any_plainReports engine supplied.length_eq
  cases changed : texts.any engine.changes with
  | true =>
    rw [changed] at found
    obtain ⟨failure, last, failed, kind⟩ := Task.on_concludeTransform_found check found
      (Context.mk environment globals).mode after
    rw [Task.on_bind_ok given, failed, ← task_transform] at transform
    have code := congrArg Prod.fst (runOn_error transform)
    rw [kind] at code
    exact code
  | false =>
    rw [changed] at found
    obtain ⟨last, concluded, -⟩ := Task.exists_gives_concludeTransform
      (Context.mk environment globals).mode _ (.inr found) after
    have run : (mk globals (.transform options)).runOn environment machine = (0, last) :=
      runOn_transform built rfl rfl given concluded
    exact congrArg Prod.fst run

theorem exists_runOn_replacing (listed : .input ∉ Source.ofOperands files)
    (opens : ∀ path ∈ files, machine.Opens path) :
    ∃ last, (replacing globals files rewrite).runOn environment machine = (0, last) ∧
      last.store = files.foldl engine.inPlace machine.store := by
  obtain ⟨texts, supplied, -⟩ := Machine.supplies_of_opens machine.session.input opens
  rw [← Source.ofOperands_eq_map listed] at supplied
  let options : TransformOptions := { files := files, inPlace := true, rewrite := rewrite }
  have built : ((Task.buildEngine ⟨environment, globals⟩ options.rewrite).on machine).1 =
    .ok engine := built
  exact runOn_inPlace built supplied rfl rfl rfl listed fun path mem => (opens path mem).writes

end

theorem any_changes_iff {store : FileStore} {texts : List String}
    (holds : List.Forall₂ (fun path text => store.read path = .ok (.text text)) files texts) :
    texts.any engine.changes = true ↔
      ∃ path ∈ files, ∃ text, store.read path = .ok (.text text) ∧ engine.changes text = true := by
  induction holds with
  | nil => simp
  | @cons path text files texts held _ ih =>
    have here : (∃ t, store.read path = .ok (.text t) ∧ engine.changes t = true) ↔
        engine.changes text = true := by
      constructor
      · rintro ⟨t, held', changed⟩
        rw [held] at held'
        cases held'
        exact changed
      · exact fun changed => ⟨text, held, changed⟩
    rw [List.any_cons, Bool.or_eq_true, ih, List.exists_mem_cons_iff, here]

/-- With an engine, the check finds a range exactly if the rewrite changes a file. -/
theorem runOn_checking_iff {globals' : GlobalOptions} (listed : .input ∉ Source.ofOperands files)
    (opens : ∀ path ∈ files, machine.Opens path)
    (built : ((Task.buildEngine ⟨environment, globals⟩ rewrite).on machine).1 = .ok engine)
    (built' : ((Task.buildEngine ⟨environment, globals'⟩ rewrite).on machine).1 = .ok engine) :
    ∃ changed last,
      ((checking globals files rewrite).runOn environment machine).1 =
        (if changed = true then 2 else 0) ∧
      (replacing globals' files rewrite).runOn environment machine = (0, last) ∧
      (changed = true ↔ machine.session.files.ChangesFile last.session.files) ∧
      (changed = false → last.store = machine.store) := by
  obtain ⟨texts, holds, checked⟩ := exists_runOn_checking built listed opens
  obtain ⟨last, replaced, store⟩ := exists_runOn_replacing built' listed opens
  obtain ⟨config, settled⟩ := Task.exists_config_of_buildEngine built
  have found : texts.any engine.changes = true ↔ ∃ path ∈ files, ∃ text,
      machine.store.1.read path = .ok (.text text) ∧ engine.changes text = true :=
    any_changes_iff holds
  refine ⟨texts.any engine.changes, last, checked, replaced, ?_, fun clean => ?_⟩
  · rw [found, ← Engine.changesFile_foldl_inPlace (Engine.shrinks_of_built settled), ← store]
    rfl
  · rw [store]
    refine Engine.foldl_inPlace_unchanged fun path mem text held => ?_
    cases changed : engine.changes text with
    | false => rfl
    | true =>
      rw [found.mpr ⟨path, mem, text, held, changed⟩] at clean
      cases clean

/-- A check leaves all files alone, whatever it finds. If no operand stands for the input and the
files can be read and written, it exits with 2 exactly if a rewrite in place with the same
configuration and the same rewriting options changes a file; else nothing is written, and both
succeed unless the engine cannot be built, which both report alike, with 3 or 4. The input is never
rewritten in place. -/
theorem check_predicts_inPlace (environment : Environment) {globals globals' : GlobalOptions}
    (same : globals'.config = globals.config) (files : List Path) (rewrite : RewriteOptions)
    (machine : Machine) :
    ((checking globals files rewrite).runOn environment machine).2.store = machine.store ∧
    (.input ∈ Source.ofOperands files →
      ((replacing globals' files rewrite).runOn environment machine).1 ≠ 0 ∧
      ((replacing globals' files rewrite).runOn environment machine).2.store = machine.store) ∧
    (.input ∉ Source.ofOperands files → (∀ path ∈ files, machine.Opens path) →
      (((checking globals files rewrite).runOn environment machine).1 = 2 ↔
        machine.session.files.ChangesFile
          ((replacing globals' files rewrite).runOn environment machine).2.session.files) ∧
      (((checking globals files rewrite).runOn environment machine).1 ≠ 2 →
        ((replacing globals' files rewrite).runOn environment machine).2.store = machine.store) ∧
      (∀ engine, ((Task.buildEngine ⟨environment, globals⟩ rewrite).on machine).1 = .ok engine →
        (((checking globals files rewrite).runOn environment machine).1 = 0 ∨
          ((checking globals files rewrite).runOn environment machine).1 = 2) ∧
        ((replacing globals' files rewrite).runOn environment machine).1 = 0) ∧
      ∀ failure, ((Task.buildEngine ⟨environment, globals⟩ rewrite).on machine).1 =
          .error failure →
        (failure.kind.code = 3 ∨ failure.kind.code = 4) ∧
        ((checking globals files rewrite).runOn environment machine).1 = failure.kind.code ∧
        ((replacing globals' files rewrite).runOn environment machine).1 = failure.kind.code) := by
  have place : (Context.mk environment globals').configPlace? =
      (Context.mk environment globals).configPlace? := by
    unfold Context.configPlace?
    rw [same]
  have result : ((Task.buildEngine ⟨environment, globals'⟩ rewrite).on machine).1 =
      ((Task.buildEngine ⟨environment, globals⟩ rewrite).on machine).1 := by
    rw [Task.result_buildEngine, Task.result_buildEngine, Task.result_loadConfig place]
  refine ⟨store_runOn_transform (.inl rfl), ?input, ?files⟩
  case input =>
    intro input
    cases built : ((Task.buildEngine ⟨environment, globals'⟩ rewrite).on machine).1 with
    | error failure =>
      obtain ⟨code, store⟩ := runOn_replacing_unbuilt files built
      exact ⟨by rw [code]; exact failure.kind.code_ne_zero, store⟩
    | ok engine =>
      obtain ⟨code, store⟩ := runOn_replacing_input built input
      exact ⟨by rw [code]; decide, store⟩
  case files =>
    intro listed opens
    cases built : ((Task.buildEngine ⟨environment, globals⟩ rewrite).on machine).1 with
    | error failure =>
      have checked := runOn_checking_unbuilt files built
      obtain ⟨replaced, store⟩ := runOn_replacing_unbuilt files (result.trans built)
      have kept : ((replacing globals' files rewrite).runOn environment machine).2.session.files =
        machine.session.files := congrArg Prod.fst store
      have code : failure.kind.code = 3 ∨ failure.kind.code = 4 :=
        FailureKind.code_of_mistake
          (Task.failsWith_buildEngine ⟨environment, globals⟩ rewrite machine failure built)
      rw [checked, kept]
      refine ⟨⟨fun two => absurd two (by omega), fun differs => ?_⟩, fun _ => store, ?_, ?_⟩
      · exact absurd differs (FileStore.not_changesFile_self _)
      · rintro engine ⟨⟩
      · rintro _ ⟨⟩
        exact ⟨code, rfl, replaced⟩
    | ok engine =>
      obtain ⟨changed, last, checked, replaced, differs, kept⟩ :=
        runOn_checking_iff listed opens built (result.trans built)
      rw [checked, replaced, ← differs]
      cases changed with
      | true =>
        refine ⟨by simp, by simp, fun _ _ => ⟨.inr rfl, rfl⟩, ?_⟩
        rintro _ ⟨⟩
      | false =>
        refine ⟨by simp, fun _ => kept rfl, fun _ _ => ⟨.inl rfl, rfl⟩, ?_⟩
        rintro _ ⟨⟩

/-- A file with a range that is named twice: the check exits with 2, and the rewrite changes it. -/
theorem check_predicts_inPlace_twice :
    ((checking {} [⟨"a.css"⟩, ⟨"a.css"⟩] {}).runOn { home := some "/tmp" }
      (.holding "a.css" "@media (width > 1px)")).1 = 2 ∧
    (Machine.holding "a.css" "@media (width > 1px)").session.files.ChangesFile
      ((replacing { verbose := true } [⟨"a.css"⟩, ⟨"a.css"⟩] {}).runOn { home := some "/tmp" }
        (.holding "a.css" "@media (width > 1px)")).2.session.files := by
  have two : ((checking {} [⟨"a.css"⟩, ⟨"a.css"⟩] {}).runOn { home := some "/tmp" }
      (.holding "a.css" "@media (width > 1px)")).1 = 2 := by
    decide +kernel
  have opens : ∀ path ∈ [Path.mk "a.css", ⟨"a.css"⟩],
      (Machine.holding "a.css" "@media (width > 1px)").Opens path := by
    intro path mem
    obtain rfl : path = ⟨"a.css"⟩ := by simpa using mem
    exact ⟨fun _ => rfl, fun _ => rfl, "@media (width > 1px)", by decide +kernel⟩
  obtain ⟨-, -, predicts⟩ := check_predicts_inPlace { home := some "/tmp" }
    (show (GlobalOptions.mk none false false true).config = (GlobalOptions.mk none false false
      false).config by rfl) [⟨"a.css"⟩, ⟨"a.css"⟩] {} (.holding "a.css" "@media (width > 1px)")
  exact ⟨two, (predicts (by decide +kernel) opens).1.mp two⟩

/-- Without an engine, a check does not exit with 0 although nothing would be changed. Neither does
it predict what becomes of the input, which cannot be rewritten in place. -/
theorem check_differs_from_inPlace :
    (Machine.holding "a.css" "").Opens ⟨"a.css"⟩ ∧
      ((checking {} [⟨"a.css"⟩] { customValue := some "(" }).runOn { home := some "/tmp" }
        (.holding "a.css" "")).1 = 3 ∧
      ((replacing {} [⟨"a.css"⟩] { customValue := some "(" }).runOn { home := some "/tmp" }
        (.holding "a.css" "")).1 = 3 ∧
      ((replacing {} [⟨"a.css"⟩] { customValue := some "(" }).runOn { home := some "/tmp" }
        (.holding "a.css" "")).2.store = (Machine.holding "a.css" "").store ∧
      ((checking {} [] {}).runOn { home := some "/tmp" }
        { session := { files := ⟨[], []⟩, input := .text "@media (width > 1px)" } }).1 = 2 ∧
      ((replacing {} [] {}).runOn { home := some "/tmp" }
        { session := { files := ⟨[], []⟩, input := .text "@media (width > 1px)" } }).1 = 3 := by
  refine ⟨⟨fun _ => rfl, fun _ => rfl, "", by decide +kernel⟩, ?_⟩
  decide +kernel

end Invocation

end MediaRange
