import MediaRange.Command.Rewriting

/-!
# Runs

`Invocation.run` runs a command on a host and gives the exit code. A failure is reported once: as a
response if JSON is asked for, and else on the error output.
-/

namespace MediaRange

namespace Invocation

variable {m : Type → Type} [Monad m] [Host m]

def context (invocation : Invocation) (environment : Environment) : Context :=
  ⟨environment, invocation.globals⟩

/-- The task of a command. The completion scripts are left out: asking for one prints nothing. -/
def task (invocation : Invocation) (environment : Environment) : Task m Unit :=
  let context := invocation.context environment
  match invocation.command with
  | .transform options => .transform context options
  | .query params rewrite => .query context params rewrite
  | .config command => .runConfig context command
  | .completions _ => pure ()

def reportFailure (globals : GlobalOptions) (failure : Failure) : m Unit :=
  if globals.json then Host.print (Response.failure failure).line
  else Host.printError s!"error: {failure.message}\n"

def run (invocation : Invocation) (environment : Environment) : m Nat := do
  match ← (invocation.task environment).run with
  | .ok () => return 0
  | .error failure =>
    reportFailure invocation.globals failure
    return failure.kind.code

end Invocation

end MediaRange
