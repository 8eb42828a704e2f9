import MediaRange.Proofs.Command.Machine

/-!
# What tasks leave alone

Reading and logging change nothing that lasts, so the output of a transformation depends on what it
delivers alone. `keeps_store_transform` shows that no file is touched without an option that names
a target.
-/

namespace MediaRange

def Machine.Scene.store (seen : Machine.Scene) : FileStore × List Path := (seen.files, seen.writes)

/-- The scene but for the input, which reading uses up. -/
def Machine.lasting (machine : Machine) : Machine.Scene :=
  { machine.scene with input := .text "" }

def Machine.store (machine : Machine) : FileStore × List Path := machine.scene.store

def Machine.output (machine : Machine) : String := machine.session.output

namespace Task

open Machine

/-! ### Reading and logging -/

theorem keeps_scene_printError (text : String) :
    Keeps scene (printError text : Task (StateM Machine) Unit) := fun _ => rfl

theorem keeps_scene_showLog (context : Context) (log : List LogRecord) :
    Keeps scene (showLog context log : Task (StateM Machine) Unit) := by
  induction log with
  | nil => exact keeps_pure ()
  | cons r log ih => exact (keeps_scene_printError r.line).when ih

theorem keeps_scene_contains (path : Path) :
    Keeps scene (perform (Host.contains path) : Task (StateM Machine) Bool) :=
  fun _ => scene_ask fun _ => rfl

theorem keeps_scene_readText (failure : FileError → Failure) (path : Path) :
    Keeps scene (readText failure path : Task (StateM Machine) String) := by
  have read : Keeps scene
      (attempt failure (Host.readFile path) : Task (StateM Machine) Content) :=
    fun _ => scene_ask fun _ => rfl
  exact read.bind fun content => keeps_require failure content.asText

theorem gives_locateConfig_iff {context : Context} {loading : Bool} {place : ConfigPlace}
    {machine after : Machine} :
    (locateConfig context loading : Task (StateM Machine) ConfigPlace).Gives machine place after ↔
      context.configPlace? = some place ∧ after = machine := by
  rw [locateConfig, gives_require_iff]
  cases context.configPlace? with
  | none => simp
  | some found => simp

theorem keeps_locateConfig {γ : Type} {view : Machine → γ} (context : Context) (loading : Bool) :
    Keeps view (locateConfig context loading : Task (StateM Machine) ConfigPlace) :=
  keeps_require _ _

theorem keeps_scene_loadConfig (context : Context) :
    Keeps scene (loadConfig context : Task (StateM Machine) Config) := by
  unfold loadConfig
  refine (keeps_locateConfig _ _).bind fun ⟨path, explicit⟩ => ?_
  refine (keeps_scene_contains _).bind fun present => ?_
  split
  · exact (keeps_scene_readText _ _).bind fun text => keeps_require _ _
  · split
    · exact keeps_throw _
    · exact (keeps_scene_showLog _ _).bind fun _ => keeps_pure _

theorem keeps_scene_buildEngine (context : Context) (rewrite : RewriteOptions) :
    Keeps scene (buildEngine context rewrite : Task (StateM Machine) Engine) := by
  unfold buildEngine
  refine (keeps_scene_loadConfig _).bind fun config => ?_
  refine (keeps_require _ _).bind fun engine => ?_
  exact (keeps_scene_showLog _ _).bind fun _ => keeps_pure _

theorem keeps_scene_verifyFile (path : Path) :
    Keeps scene (verifyFile path : Task (StateM Machine) (List String)) := by
  unfold verifyFile
  refine (keeps_scene_contains _).bind fun present => ?_
  refine Keeps.when (keeps_throw _) ?_
  refine (keeps_scene_readText _ _).bind fun text => ?_
  exact (keeps_require _ _).bind fun problems => keeps_pure _

theorem Keeps.lasting {α : Type} {x : Task (StateM Machine) α} (h : Keeps scene x) :
    Keeps Machine.lasting x :=
  fun machine => congrArg (fun seen : Scene => { seen with input := .text "" }) (h machine)

theorem keeps_lasting_readSource (source : Source) :
    Keeps Machine.lasting (readSource source : Task (StateM Machine) String) := by
  unfold readSource
  cases source with
  | file path => exact (keeps_scene_readText _ _).lasting
  | input =>
    have read : Keeps Machine.lasting
        (attempt (.sourceUnreadable .input) Host.readInput : Task (StateM Machine) Content) := by
      intro machine
      change Machine.lasting (ask .readInput Except.error Host.readInput machine).2 = _
      rw [ask]
      split
      · rfl
      · rfl
    exact read.bind fun content => keeps_require _ content.asText

/-! ### Transformations -/

section

variable {γ : Type} (view : Scene → γ) {context : Context} {options : TransformOptions}

theorem keeps_transformSource {source : Source}
    (delivers : ∀ processed, Keeps (fun machine => view machine.lasting)
      (deliver context.mode options source processed : Task (StateM Machine) FileReport))
    (engine : Engine) :
    Keeps (fun machine => view machine.lasting)
      (transformSource context options engine source : Task (StateM Machine) FileReport) := by
  unfold transformSource
  refine ((keeps_lasting_readSource source).map view).bind fun css => ?_
  refine ((keeps_scene_showLog _ _).lasting.map view).bind fun _ => ?_
  exact Keeps.when ((keeps_scene_printError _).lasting.map view) (delivers _)

theorem keeps_transformSources
    (delivers : ∀ source processed, Keeps (fun machine => view machine.lasting)
      (deliver context.mode options source processed : Task (StateM Machine) FileReport))
    (engine : Engine) (sources : List Source) :
    Keeps (fun machine => view machine.lasting)
      (transformSources context options engine sources :
        Task (StateM Machine) (List FileReport)) := by
  induction sources with
  | nil => exact keeps_pure []
  | cons source sources ih =>
    refine (keeps_transformSource view (delivers source) engine).bind fun report => ?_
    exact ih.bind fun reports => keeps_pure (report :: reports)

end

theorem keeps_output_writeFile (failure : FileError → Failure) (path : Path) (text : String) :
    Keeps (fun machine => machine.lasting.output)
      (attempt failure (Host.writeFile path text) : Task (StateM Machine) Unit) := by
  intro machine
  have written : ∀ session : Session,
      ((Host.writeFile path text : StateM Session (Except FileError Unit)) session).2.output =
        session.output := by
    intro session
    change (Session.changeFiles _ session).2.output = _
    rw [Session.changeFiles]
    split
    · rfl
    · rfl
  change (ask (.writeFile path) Except.error (Host.writeFile path text)
    { machine with writes := machine.writes ++ [path] }).2.lasting.output = _
  rw [ask]
  split
  · rfl
  · exact written machine.session

/-- Stylesheets are not printed one by one if they come with the response, or if there is a summary. -/
theorem keeps_output_deliver {mode : OutputMode} {options : TransformOptions}
    (unprinted : mode = .json ∨ options.hasSummary = true) (source : Source)
    (processed : Processed) :
    Keeps (fun machine => machine.lasting.output)
      (deliver mode options source processed : Task (StateM Machine) FileReport) := by
  unfold deliver
  dsimp only
  split
  · exact keeps_pure _
  · rename_i unchecked
    split
    · exact (keeps_output_writeFile _ _ _).bind fun _ => keeps_pure _
    · rename_i untargeted
      split
      · exact keeps_pure _
      · rename_i noInPlace
        split
        · exact keeps_pure _
        -- The option that is left has a target.
        · rename_i noJson
          exfalso
          have summary := unprinted.resolve_left noJson
          unfold TransformOptions.hasSummary at summary
          unfold TransformOptions.target? at untargeted
          cases source with
          | input | file path => simp_all

theorem keeps_store_print (text : String) :
    Keeps Machine.store (print text : Task (StateM Machine) Unit) := fun _ => rfl

theorem keeps_store_deliver {options : TransformOptions}
    (dry : options.check = true ∨ options.output = none ∧ options.inPlace = false)
    (mode : OutputMode) (source : Source) (processed : Processed) :
    Keeps (fun machine => machine.lasting.store)
      (deliver mode options source processed : Task (StateM Machine) FileReport) := by
  unfold deliver
  dsimp only
  split
  · exact keeps_pure _
  · rename_i unchecked
    obtain ⟨output, inPlace⟩ := dry.resolve_left unchecked
    have target : options.target? source processed.isChanged = none := by
      unfold TransformOptions.target?
      rw [inPlace]
      cases source with
      | input => exact output
      | file path => exact output
    rw [target, inPlace]
    dsimp only
    split
    · exact keeps_pure _
    · split
      · exact keeps_pure _
      · exact (keeps_store_print _).bind fun _ => keeps_pure _

theorem keeps_store_concludeTransform (mode : OutputMode) (options : TransformOptions)
    (reports : List FileReport) :
    Keeps Machine.store (concludeTransform mode options reports : Task (StateM Machine) Unit) := by
  unfold concludeTransform
  refine Keeps.when (keeps_store_print _) ?_
  refine Keeps.when (keeps_throw _) ?_
  split
  · exact keeps_store_print _
  · exact keeps_pure _

/-- A check, and a transformation without a target, leaves all files as they are. -/
theorem keeps_store_transform {options : TransformOptions}
    (dry : options.check = true ∨ options.output = none ∧ options.inPlace = false)
    (context : Context) :
    Keeps Machine.store (transform context options : Task (StateM Machine) Unit) := by
  have scene : ∀ {α : Type} {x : Task (StateM Machine) α}, Keeps scene x → Keeps Machine.store x :=
    fun h machine => congrArg Scene.store (h machine)
  unfold transform
  refine (scene (keeps_scene_buildEngine _ _)).bind fun engine => ?_
  refine Keeps.when (keeps_throw _) ?_
  refine Keeps.when (keeps_throw _) ?_
  refine Keeps.bind ?_ fun reports => keeps_store_concludeTransform _ _ reports
  exact keeps_transformSources Scene.store (keeps_store_deliver dry _) engine _

end Task

end MediaRange
