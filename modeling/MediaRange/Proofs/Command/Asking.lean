import MediaRange.Proofs.Command.Effects

/-!
# What a task asks for

A task that asks for allowed operations only goes the same way whichever others are refused. Building
an engine asks for the configuration file, by `asksOnly_buildEngine`, and for no other.
-/

namespace MediaRange

namespace Machine

variable {α : Type} {operation : Operation} {machine : Machine} (refused : FileError → α)
  (action : StateM Session α)

theorem refusal_ask : (ask operation refused action machine).2.refusal = machine.refusal := by
  unfold ask
  split
  · rfl
  · rfl

theorem ask_congr {refusal : Nat → Operation → Option FileError}
    (agree : refusal machine.asked operation = machine.refusal machine.asked operation) :
    ask operation refused action { machine with refusal := refusal } =
      ((ask operation refused action machine).1,
        { (ask operation refused action machine).2 with refusal := refusal }) := by
  unfold ask
  dsimp only
  rw [agree]
  split
  · rfl
  · rfl

end Machine

namespace Task

open Machine

/-- The task asks for allowed operations only: it makes no difference which others are refused. -/
structure AsksOnly {α : Type} (allowed : Operation → Prop) (x : Task (StateM Machine) α) :
    Prop where
  keeps : Keeps Machine.refusal x
  same : ∀ (machine : Machine) refusal, (∀ asked operation, allowed operation →
      refusal asked operation = machine.refusal asked operation) →
    x.on { machine with refusal := refusal } =
      ((x.on machine).1, { (x.on machine).2 with refusal := refusal })

section

variable {α β : Type} {allowed : Operation → Prop}

theorem asksOnly_pure (a : α) : AsksOnly allowed (pure a : Task (StateM Machine) α) :=
  ⟨fun _ => rfl, fun _ _ _ => rfl⟩

theorem asksOnly_throw (failure : Failure) :
    AsksOnly allowed (throw failure : Task (StateM Machine) α) :=
  ⟨fun _ => rfl, fun _ _ _ => rfl⟩

theorem asksOnly_require {ε : Type} (failure : ε → Failure) (value : Except ε α) :
    AsksOnly allowed (require failure value : Task (StateM Machine) α) :=
  ⟨fun _ => rfl, fun _ _ _ => rfl⟩

theorem AsksOnly.bind {x : Task (StateM Machine) α} {f : α → Task (StateM Machine) β}
    (first : AsksOnly allowed x) (second : ∀ a, AsksOnly allowed (f a)) :
    AsksOnly allowed (x >>= f) where
  keeps := first.keeps.bind fun a => (second a).keeps
  same machine refusal agree := by
    have same := first.same machine refusal agree
    have kept := first.keeps machine
    cases h : x.on machine with
    | mk result middle =>
      rw [h] at same kept
      cases result with
      | error failure => rw [on_bind_error h, on_bind_error same]
      | ok a =>
        rw [on_bind_ok h, on_bind_ok same]
        refine (second a).same middle refusal fun asked operation allows => ?_
        rw [agree asked operation allows]
        exact congrFun (congrFun kept.symm asked) operation

theorem asksOnly_showLog (context : Context) (log : List LogRecord) :
    AsksOnly allowed (showLog context log : Task (StateM Machine) Unit) := by
  induction log with
  | nil => exact asksOnly_pure ()
  | cons r log ih =>
    rw [showLog]
    dsimp only
    split
    · exact AsksOnly.bind ⟨fun _ => rfl, fun _ _ _ => rfl⟩ fun _ => ih
    · exact ih

section

variable {operation : Operation} (allows : allowed operation)
include allows

theorem asksOnly_perform (refused : FileError → α) (action : StateM Session α) :
    AsksOnly allowed (perform (ask operation refused action) : Task (StateM Machine) α) where
  keeps _ := refusal_ask refused action
  same machine _ agree := congrArg (fun result : α × Machine => (Except.ok result.1, result.2))
    (ask_congr refused action (agree machine.asked operation allows))

theorem asksOnly_attempt (failure : FileError → Failure)
    (action : StateM Session (Except FileError α)) :
    AsksOnly allowed (attempt failure (ask operation .error action) :
      Task (StateM Machine) α) where
  keeps _ := refusal_ask Except.error action
  same machine _ agree :=
    congrArg (fun result : Except FileError α × Machine => (result.1.mapError failure, result.2))
      (ask_congr Except.error action (agree machine.asked operation allows))

end

theorem asksOnly_readText (failure : FileError → Failure) {path : Path}
    (reads : allowed (.readFile path)) :
    AsksOnly allowed (readText failure path : Task (StateM Machine) String) :=
  (asksOnly_attempt reads failure (Host.readFile path)).bind fun content =>
    asksOnly_require failure content.asText

variable (context : Context)
  (contains : ∀ place ∈ context.configPlace?, allowed (.contains place.path))
  (reads : ∀ place ∈ context.configPlace?, allowed (.readFile place.path))
include contains reads

theorem asksOnly_loadConfig :
    AsksOnly allowed (loadConfig context : Task (StateM Machine) Config) := by
  unfold loadConfig locateConfig
  cases located : context.configPlace? with
  | none => exact asksOnly_throw (.configDirectoryUnknown true)
  | some place =>
    rw [Option.elim_some, require_ok_bind]
    refine (asksOnly_perform (contains place located) (fun _ => false)
      (Host.contains place.path)).bind fun present => ?_
    split
    · exact (asksOnly_readText _ (reads place located)).bind fun text => asksOnly_require _ _
    · split
      · exact asksOnly_throw _
      · exact (asksOnly_showLog _ _).bind fun _ => asksOnly_pure _

/-- Only the configuration file is asked for to build the engine. -/
theorem asksOnly_buildEngine (rewrite : RewriteOptions) :
    AsksOnly allowed (buildEngine context rewrite : Task (StateM Machine) Engine) := by
  unfold buildEngine
  refine (asksOnly_loadConfig context contains reads).bind fun config => ?_
  refine (asksOnly_require _ _).bind fun engine => ?_
  exact (asksOnly_showLog _ _).bind fun _ => asksOnly_pure _

end

end Task

end MediaRange
