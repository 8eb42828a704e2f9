import MediaRange.Command.Run
import MediaRange.Proofs.Results

/-!
# Machines that may refuse

A `Machine` is a session on a system that may refuse any operation at any time, for any reason. An
operation that is refused has no effect. `Task.on` is what a task gives on a machine and what it
leaves behind; `Task.Gives` tells of a task that succeeds, and `Task.Keeps` of what a task leaves
as it was, whether it succeeds or not. `Invocation.runOn` is a whole run.
-/

namespace MediaRange

inductive Operation where
  | readFile (path : Path)
  | writeFile (path : Path)
  | contains (path : Path)
  | isDirectory (path : Path)
  | makeDirectory (path : Path)
  | readInput
  deriving DecidableEq

/-- A session, the operations that are refused, by how many were asked for before, and the files
that were to be written so far. -/
structure Machine where
  session : Session
  refusal : Nat → Operation → Option FileError := fun _ _ => none
  asked : Nat := 0
  writes : List Path := []

namespace Machine

/-- Asks for an operation of the session. -/
def ask {α : Type} (operation : Operation) (refused : FileError → α) (action : StateM Session α) :
    StateM Machine α := fun machine =>
  match machine.refusal machine.asked operation with
  | some cause => (refused cause, { machine with asked := machine.asked + 1 })
  | none =>
    ((action machine.session).1,
      { machine with session := (action machine.session).2, asked := machine.asked + 1 })

def tell (action : StateM Session Unit) : StateM Machine Unit := fun machine =>
  ((), { machine with session := (action machine.session).2 })

instance : Host (StateM Machine) where
  readFile path := ask (.readFile path) .error (Host.readFile path)
  writeFile path text := fun machine =>
    ask (.writeFile path) .error (Host.writeFile path text)
      { machine with writes := machine.writes ++ [path] }
  contains path := ask (.contains path) (fun _ => false) (Host.contains path)
  isDirectory path := ask (.isDirectory path) (fun _ => false) (Host.isDirectory path)
  makeDirectory path := ask (.makeDirectory path) .error (Host.makeDirectory path)
  readInput := ask .readInput .error Host.readInput
  print text := tell (Host.print text)
  printError text := tell (Host.printError text)

/-- A machine that refuses nothing, with one file in its current directory. -/
def holding (name text : String) : Machine :=
  { session := {
      files := ⟨["tmp"], [(["tmp"], .directory), (["tmp", name], .file (.text text))]⟩ } }

/-- An operation that is never refused. -/
def Grants (machine : Machine) (operation : Operation) : Prop :=
  ∀ asked, machine.refusal asked operation = none

theorem ask_granted {machine : Machine} {operation : Operation}
    (h : machine.refusal machine.asked operation = none) {α : Type} (refused : FileError → α)
    (action : StateM Session α) :
    ask operation refused action machine =
      ((action machine.session).1,
        { machine with session := (action machine.session).2, asked := machine.asked + 1 }) := by
  rw [ask, h]

theorem ask_refused {machine : Machine} {operation : Operation} {cause : FileError}
    (h : machine.refusal machine.asked operation = some cause) {α : Type} (refused : FileError → α)
    (action : StateM Session α) :
    ask operation refused action machine =
      (refused cause, { machine with asked := machine.asked + 1 }) := by
  rw [ask, h]

/-- What a run can be seen by, apart from its error output. -/
structure Scene where
  files : FileStore
  input : Content
  output : String
  writes : List Path
  refusal : Nat → Operation → Option FileError

def scene (machine : Machine) : Scene :=
  ⟨machine.session.files, machine.session.input, machine.session.output, machine.writes,
    machine.refusal⟩

theorem scene_ask {machine : Machine} {operation : Operation} {α : Type} {refused : FileError → α}
    {action : StateM Session α} (asks : ∀ session, (action session).2 = session) :
    (ask operation refused action machine).2.scene = machine.scene := by
  rw [ask]
  split
  · rfl
  · rw [asks]
    rfl

end Machine

/-! ### Tasks -/

namespace Task

variable {α β γ : Type}

/-- What a task gives on a machine, and what it leaves behind. -/
def on (task : Task (StateM Machine) α) (machine : Machine) : Except Failure α × Machine :=
  (StateT.run (ExceptT.run task) machine : Id _)

section

variable {x : Task (StateM Machine) α} {f : α → Task (StateM Machine) β} {machine after : Machine}
  {failure : Failure} {a : α}

theorem on_bind (x : Task (StateM Machine) α) (f : α → Task (StateM Machine) β)
    (machine : Machine) :
    (x >>= f).on machine =
      (ExceptT.bindCont f (x.on machine).1 : StateM Machine (Except Failure β)) (x.on machine).2 :=
  rfl

theorem on_bind_ok (h : x.on machine = (.ok a, after)) : (x >>= f).on machine = (f a).on after := by
  rw [on_bind, h]
  rfl

theorem on_bind_error (h : x.on machine = (.error failure, after)) :
    (x >>= f).on machine = (.error failure, after) := by
  rw [on_bind, h]
  rfl

/-- A task in two parts fails if one of them does, and the second one is tried after the first. -/
theorem on_bind_eq_error_iff : (x >>= f).on machine = (.error failure, after) ↔
    x.on machine = (.error failure, after) ∨
      ∃ a middle, x.on machine = (.ok a, middle) ∧ (f a).on middle = (.error failure, after) := by
  constructor
  · intro failed
    cases h : x.on machine with
    | mk result middle =>
      cases result with
      | ok a => exact .inr ⟨a, middle, rfl, (on_bind_ok h).symm.trans failed⟩
      | error cause =>
        rw [on_bind_error h] at failed
        cases failed
        exact .inl rfl
  · rintro (failed | ⟨a, middle, given, failed⟩)
    · exact on_bind_error failed
    · exact (on_bind_ok given).trans failed

theorem on_attempt (failure : FileError → Failure) (action : StateM Machine (Except FileError α))
    (machine : Machine) :
    (attempt failure action).on machine =
      ((action machine).1.mapError failure, (action machine).2) := rfl

theorem on_require {ε : Type} (failure : ε → Failure) (value : Except ε α) (machine : Machine) :
    (require failure value : Task (StateM Machine) α).on machine =
      (value.mapError failure, machine) := rfl

theorem require_ok_bind {ε : Type} (failure : ε → Failure) (a : α)
    (f : α → Task (StateM Machine) β) : (require failure (.ok a) >>= f) = f a := rfl

end

def Gives (x : Task (StateM Machine) α) (machine : Machine) (a : α) (after : Machine) : Prop :=
  x.on machine = (.ok a, after)

section

variable {x : Task (StateM Machine) α} {f : α → Task (StateM Machine) β}
  {machine middle after : Machine} {a : α} {b : β}

theorem gives_pure (a : α) (machine : Machine) :
    (pure a : Task (StateM Machine) α).Gives machine a machine := rfl

theorem Gives.bind (first : x.Gives machine a middle) (second : (f a).Gives middle b after) :
    (x >>= f).Gives machine b after :=
  (on_bind_ok first).trans second

theorem gives_attempt {failure : FileError → Failure}
    {action : StateM Machine (Except FileError α)} (h : action machine = (.ok a, after)) :
    (attempt failure action).Gives machine a after := by
  rw [Gives, on_attempt, h]
  rfl

theorem gives_require_iff {ε : Type} {failure : ε → Failure} {value : Except ε α} :
    (require failure value : Task (StateM Machine) α).Gives machine a after ↔
      value = .ok a ∧ after = machine := by
  rw [Gives, on_require, Prod.mk.injEq, mapError_eq_ok_iff, eq_comm (a := machine)]

theorem gives_require {ε : Type} {failure : ε → Failure} {value : Except ε α} (h : value = .ok a) :
    (require failure value : Task (StateM Machine) α).Gives machine a machine :=
  gives_require_iff.mpr ⟨h, rfl⟩

end

/-- What can be seen of a machine is the same after the task, whether it succeeds or not. -/
def Keeps (view : Machine → γ) (x : Task (StateM Machine) α) : Prop :=
  ∀ machine, view (x.on machine).2 = view machine

section

variable {view : Machine → γ} {x : Task (StateM Machine) α} {f : α → Task (StateM Machine) β}

theorem keeps_pure (a : α) : Keeps view (pure a : Task (StateM Machine) α) := fun _ => rfl

theorem keeps_throw (failure : Failure) :
    Keeps view (throw failure : Task (StateM Machine) α) := fun _ => rfl

theorem keeps_require {ε : Type} (failure : ε → Failure) (value : Except ε α) :
    Keeps view (require failure value : Task (StateM Machine) α) := fun _ => rfl

theorem Keeps.bind (first : Keeps view x) (second : ∀ a, Keeps view (f a)) :
    Keeps view (x >>= f) := by
  intro machine
  have kept := first machine
  rw [on_bind]
  cases (x.on machine).1 with
  | ok a => exact (second a _).trans kept
  | error failure => exact kept

theorem Keeps.map {δ : Type} (g : γ → δ) (h : Keeps view x) : Keeps (g ∘ view) x :=
  fun machine => congrArg g (h machine)

theorem Keeps.when {step : Task (StateM Machine) PUnit} {next : Task (StateM Machine) β}
    {c : Prop} [Decidable c] (here : Keeps view step) (later : Keeps view next) :
    Keeps view (if c then step >>= fun _ => next else next) := by
  split
  · exact here.bind fun _ => later
  · exact later

end

end Task

/-! ### Runs -/

theorem FailureKind.code_ne_zero (kind : FailureKind) : kind.code ≠ 0 := by
  cases kind with
  | general | check | arguments | configuration | files => decide

theorem FailureKind.code_of_mistake {kind : FailureKind}
    (h : kind = .arguments ∨ kind = .configuration) : kind.code = 3 ∨ kind.code = 4 := by
  rcases h with rfl | rfl
  · exact .inl rfl
  · exact .inr rfl

namespace Invocation

/-- The exit code of a run on a machine, and what it leaves behind. -/
def runOn (invocation : Invocation) (environment : Environment) (machine : Machine) :
    Nat × Machine :=
  (StateT.run (invocation.run environment) machine : Id _)

section

variable {invocation : Invocation} {environment : Environment} {machine after : Machine}

theorem runOn_eq : invocation.runOn environment machine =
    (StateT.run
      (match ((invocation.task environment).on machine).1 with
        | .ok () => (pure 0 : StateM Machine Nat)
        | .error failure => do
          reportFailure invocation.globals failure
          return failure.kind.code)
      ((invocation.task environment).on machine).2 : Id _) := rfl

theorem runOn_ok (h : (invocation.task environment).on machine = (.ok (), after)) :
    invocation.runOn environment machine = (0, after) := by
  rw [runOn_eq, h]
  rfl

theorem runOn_error {failure : Failure}
    (h : (invocation.task environment).on machine = (.error failure, after)) :
    invocation.runOn environment machine =
      (failure.kind.code,
        ((reportFailure invocation.globals failure : StateM Machine Unit) after).2) := by
  rw [runOn_eq, h]
  rfl

end

section

variable {globals : GlobalOptions} (failure : Failure)

theorem reportFailure_json (json : globals.json = true) :
    (reportFailure globals failure : StateM Machine Unit) =
      Host.print (Response.failure failure).line := by
  rw [reportFailure, if_pos json]

theorem reportFailure_plain (plain : globals.json = false) :
    (reportFailure globals failure : StateM Machine Unit) =
      Host.printError s!"error: {failure.message}\n" := by
  rw [reportFailure, if_neg (by simp [plain])]

variable (globals) in
/-- A report adds to the output and to the error output, and that is all. -/
theorem exists_reportFailure : ∃ output errors, ∀ machine : Machine,
    (reportFailure globals failure : StateM Machine Unit) machine =
      ((), { machine with session := { machine.session with
        output := machine.session.output ++ output
        errors := machine.session.errors ++ errors } }) := by
  cases json : globals.json with
  | true =>
    refine ⟨(Response.failure failure).line, "", fun machine => ?_⟩
    rw [reportFailure_json failure json, String.append_empty]
    rfl
  | false =>
    refine ⟨"", s!"error: {failure.message}\n", fun machine => ?_⟩
    rw [reportFailure_plain failure json, String.append_empty]
    rfl

end

end Invocation

end MediaRange
