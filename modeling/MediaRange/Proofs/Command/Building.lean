import MediaRange.Proofs.Command.Steps
import MediaRange.Proofs.Rewriting.Shrinking

/-!
# Building the engine of a run

What `buildEngine` gives depends on the configuration and on the options alone, and not on how much
is logged. Its engine comes from a configuration, so it takes signs out of what it rewrites; and if
there is none, the exit code tells whose mistake that is.
-/

namespace MediaRange

namespace Task

open Machine

variable {α β : Type} {machine : Machine}

/-! ### Results -/

theorem result_loadConfig {context context' : Context}
    (same : context'.configPlace? = context.configPlace?) :
    ((loadConfig context').on machine).1 = ((loadConfig context).on machine).1 := by
  unfold loadConfig
  rw [locateConfig, same, ← locateConfig]
  cases located : (locateConfig context true : Task (StateM Machine) ConfigPlace).on machine with
  | mk result middle =>
    cases result with
    | error failure => rw [on_bind_error located, on_bind_error located]
    | ok place =>
      rw [on_bind_ok located, on_bind_ok located]
      dsimp only
      let found := (Host.contains place.path : StateM Machine Bool) middle
      have asked : (perform (Host.contains place.path : StateM Machine Bool)).on middle =
          (.ok found.1, found.2) := rfl
      rw [on_bind_ok asked, on_bind_ok asked]
      split
      · rfl
      · split
        · rfl
        -- How much of the record is shown depends on the context, but nothing else does.
        · let log : List LogRecord :=
            [⟨.debug, .configuration, s!"no config at {place.path.text}, using defaults"⟩]
          obtain ⟨_, shown, -⟩ := exists_gives_showLog context log found.2
          obtain ⟨_, shown', -⟩ := exists_gives_showLog context' log found.2
          rw [on_bind_ok shown, on_bind_ok shown']
          rfl

theorem result_buildEngine (context : Context) (rewrite : RewriteOptions) :
    ((buildEngine context rewrite).on machine).1 =
      ((loadConfig context).on machine).1.bind fun config =>
        ((config.override rewrite).settings.bind Engine.build).mapError
          (.settings rewrite.customValue.isSome) := by
  unfold buildEngine
  cases loaded : (loadConfig context).on machine with
  | mk result middle =>
    cases result with
    | error failure =>
      rw [on_bind_error loaded]
      rfl
    | ok config =>
      rw [on_bind_ok loaded]
      change _ = ((config.override rewrite).settings.bind Engine.build).mapError _
      dsimp only
      cases (config.override rewrite).settings.bind Engine.build with
      | error cause => rfl
      | ok engine =>
        obtain ⟨after, shown, -⟩ := exists_gives_showLog context [engine.settings.record] middle
        rw [require_ok_bind, on_bind_ok shown]
        rfl

/-- Without a configuration and without options, the engine has no custom values. -/
theorem buildEngine_default {context : Context}
    (loaded : ((loadConfig context).on machine).1 = .ok {}) :
    ((buildEngine context {}).on machine).1 = .ok ⟨Grammar.ofBody none, {}⟩ := by
  have settings : (Config.override {} {}).settings = .ok {} := by rfl
  rw [result_buildEngine, loaded, Except.bind, settings, Except.bind, Engine.build,
    Grammar.build_none]
  rfl

theorem exists_config_of_buildEngine {context : Context} {rewrite : RewriteOptions}
    {engine : Engine} (built : ((buildEngine context rewrite).on machine).1 = .ok engine) :
    ∃ config : Config, config.settings.bind Engine.build = .ok engine := by
  rw [result_buildEngine] at built
  obtain ⟨config, -, built⟩ := bind_eq_ok_iff.mp built
  exact ⟨config.override rewrite, mapError_eq_ok_iff.mp built⟩

/-! ### Failures -/

/-- The task can only fail in some ways. -/
def FailsWith (kinds : FailureKind → Prop) (x : Task (StateM Machine) α) : Prop :=
  ∀ machine failure, (x.on machine).1 = .error failure → kinds failure.kind

section

variable {kinds : FailureKind → Prop} {x : Task (StateM Machine) α}
  {f : α → Task (StateM Machine) β}

theorem FailsWith.bind (first : FailsWith kinds x) (second : ∀ a, FailsWith kinds (f a)) :
    FailsWith kinds (x >>= f) := by
  intro machine failure failed
  rcases on_bind_eq_error_iff.mp (Prod.ext failed rfl) with failed | ⟨a, middle, -, failed⟩
  · exact first machine failure (congrArg Prod.fst failed)
  · exact second a middle failure (congrArg Prod.fst failed)

theorem failsWith_pure (a : α) : FailsWith kinds (pure a : Task (StateM Machine) α) := by
  intro machine failure failed
  cases failed

theorem failsWith_throw {failure : Failure} (h : kinds failure.kind) :
    FailsWith kinds (throw failure : Task (StateM Machine) α) := by
  intro machine failure' failed
  cases failed
  exact h

theorem failsWith_require {ε : Type} {failure : ε → Failure}
    (h : ∀ cause, kinds (failure cause).kind) (value : Except ε α) :
    FailsWith kinds (require failure value : Task (StateM Machine) α) := by
  intro machine failure' failed
  cases value with
  | ok a => cases failed
  | error cause =>
    cases failed
    exact h cause

theorem failsWith_attempt {failure : FileError → Failure}
    (h : ∀ cause, kinds (failure cause).kind) (action : StateM Machine (Except FileError α)) :
    FailsWith kinds (attempt failure action) := fun machine failure' failed =>
  failsWith_require h (action machine).1 machine failure' failed

end

theorem failsWith_loadConfig (context : Context) :
    FailsWith (· = .configuration) (loadConfig context : Task (StateM Machine) Config) := by
  unfold loadConfig
  refine FailsWith.bind (failsWith_require (fun _ => by rfl) _) fun ⟨path, explicit⟩ => ?_
  refine FailsWith.bind (fun _ _ failed => by cases failed) fun present => ?_
  split
  · refine FailsWith.bind ?_ fun text => failsWith_require (fun _ => by rfl) _
    unfold readText
    exact (failsWith_attempt (fun _ => by rfl) _).bind fun content =>
      failsWith_require (fun _ => by rfl) _
  · split
    · exact failsWith_throw rfl
    · refine FailsWith.bind (fun machine failure failed => ?_) fun _ => failsWith_pure _
      obtain ⟨_, shown, -⟩ := exists_gives_showLog context
        [⟨.debug, .configuration, s!"no config at {path.text}, using defaults"⟩] machine
      rw [shown] at failed
      cases failed

/-- An engine that cannot be built is a mistake in the arguments or in the configuration. -/
theorem failsWith_buildEngine (context : Context) (rewrite : RewriteOptions) :
    FailsWith (fun kind => kind = .arguments ∨ kind = .configuration)
      (buildEngine context rewrite : Task (StateM Machine) Engine) := by
  intro machine failure failed
  rw [result_buildEngine] at failed
  cases loaded : ((loadConfig context).on machine).1 with
  | error cause =>
    rw [loaded] at failed
    cases failed
    exact .inr (failsWith_loadConfig context machine failure loaded)
  | ok config =>
    rw [loaded] at failed
    have settings : FailsWith (fun kind => kind = .arguments ∨ kind = .configuration)
        (require (.settings rewrite.customValue.isSome)
          ((config.override rewrite).settings.bind Engine.build) :
          Task (StateM Machine) Engine) := by
      refine failsWith_require (fun cause => ?_) _
      cases rewrite.customValue.isSome with
      | false => exact .inr rfl
      | true => exact .inl rfl
    exact settings machine failure failed

end Task

end MediaRange
