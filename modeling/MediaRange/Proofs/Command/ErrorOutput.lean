import MediaRange.Proofs.Command.Effects

/-!
# The error output

Log records and announcements are lines of their own, and nothing else is written to the error output
before a failure is reported: `logsLines_task` shows that every task adds whole lines to it.
-/

namespace MediaRange

/-! ### Whole lines -/

/-- Any number of lines, each of which is ended. -/
def IsLines (text : String) : Prop := text = "" ∨ ∃ lines, text = lines ++ "\n"

theorem IsLines.append {first second : String} (h : IsLines first) (h' : IsLines second) :
    IsLines (first ++ second) := by
  rcases h' with rfl | ⟨lines, rfl⟩
  · rwa [String.append_empty]
  · exact .inr ⟨first ++ lines, (String.append_assoc ..).symm⟩

theorem isLines_join {texts : List String} (h : ∀ text ∈ texts, IsLines text) :
    IsLines (String.join texts) := by
  induction texts with
  | nil => exact .inl rfl
  | cons text texts ih =>
    obtain ⟨here, later⟩ := List.forall_mem_cons.mp h
    rw [String.join_cons]
    exact here.append (ih later)

theorem LogRecord.isLines_line (r : LogRecord) : IsLines r.line := .inr ⟨_, rfl⟩

theorem RuleChange.isLines_announcement (name : String) (c : RuleChange) :
    IsLines (c.announcement name) := .inr ⟨_, rfl⟩

namespace Session

/-- What has been printed on both outputs. -/
def printed (session : Session) : String × String := (session.output, session.errors)

theorem printed_changeFiles (change : FileStore → Except FileError FileStore) (session : Session) :
    (changeFiles change session).2.printed = session.printed := by
  unfold changeFiles
  split
  · rfl
  · rfl

end Session

namespace Machine

def printed (machine : Machine) : String × String := machine.session.printed

def errors (machine : Machine) : String := machine.session.errors

theorem printed_ask {α : Type} {operation : Operation} {refused : FileError → α}
    {action : StateM Session α} (same : ∀ session, (action session).2.printed = session.printed)
    (machine : Machine) : (ask operation refused action machine).2.printed = machine.printed := by
  unfold ask
  split
  · rfl
  · exact same machine.session

end Machine

namespace Task

open Machine

/-! ### The error output -/

/-- The task adds whole lines to the error output. -/
def LogsLines {α : Type} (x : Task (StateM Machine) α) : Prop :=
  ∀ machine, ∃ log, IsLines log ∧ errors (x.on machine).2 = errors machine ++ log

section

variable {α β : Type} {x : Task (StateM Machine) α} {f : α → Task (StateM Machine) β}

theorem Keeps.logsLines (h : Keeps printed x) : LogsLines x := fun machine =>
  ⟨"", .inl rfl, (congrArg Prod.snd (h machine)).trans String.append_empty.symm⟩

theorem LogsLines.bind (first : LogsLines x) (second : ∀ a, LogsLines (f a)) :
    LogsLines (x >>= f) := by
  intro machine
  obtain ⟨log, lines, added⟩ := first machine
  cases h : x.on machine with
  | mk result middle =>
    rw [h] at added
    cases result with
    | error failure =>
      rw [on_bind_error h]
      exact ⟨log, lines, added⟩
    | ok a =>
      obtain ⟨log', lines', added'⟩ := second a middle
      rw [on_bind_ok h]
      refine ⟨log ++ log', lines.append lines', ?_⟩
      rw [added', ← String.append_assoc]
      exact congrArg (· ++ log') added

theorem LogsLines.when {step : Task (StateM Machine) PUnit} {next : Task (StateM Machine) β}
    {c : Prop} [Decidable c] (here : LogsLines step) (later : LogsLines next) :
    LogsLines (if c then step >>= fun _ => next else next) := by
  split
  · exact here.bind fun _ => later
  · exact later

theorem logsLines_pure (a : α) : LogsLines (pure a : Task (StateM Machine) α) :=
  (keeps_pure a).logsLines

theorem logsLines_throw (failure : Failure) :
    LogsLines (throw failure : Task (StateM Machine) α) := (keeps_throw failure).logsLines

theorem logsLines_require {ε : Type} (failure : ε → Failure) (value : Except ε α) :
    LogsLines (require failure value : Task (StateM Machine) α) :=
  (keeps_require failure value).logsLines

end

theorem logsLines_print (text : String) :
    LogsLines (print text : Task (StateM Machine) Unit) := fun _ =>
  ⟨"", .inl rfl, String.append_empty.symm⟩

theorem logsLines_printError {text : String} (lines : IsLines text) :
    LogsLines (printError text : Task (StateM Machine) Unit) := fun _ => ⟨text, lines, rfl⟩

theorem logsLines_showLog (context : Context) (log : List LogRecord) :
    LogsLines (showLog context log : Task (StateM Machine) Unit) := by
  induction log with
  | nil => exact logsLines_pure ()
  | cons r log ih => exact (logsLines_printError r.isLines_line).when ih

theorem logsLines_contains (path : Path) :
    LogsLines (perform (Host.contains path) : Task (StateM Machine) Bool) :=
  Keeps.logsLines (printed_ask fun _ => rfl)

theorem logsLines_readText (failure : FileError → Failure) (path : Path) :
    LogsLines (readText failure path : Task (StateM Machine) String) := by
  have read : LogsLines (attempt failure (Host.readFile path) : Task (StateM Machine) Content) :=
    Keeps.logsLines (printed_ask fun _ => rfl)
  exact read.bind fun content => logsLines_require failure content.asText

theorem keeps_printed_writeFile (failure : FileError → Failure) (path : Path) (text : String) :
    Keeps printed (attempt failure (Host.writeFile path text) : Task (StateM Machine) Unit) :=
  fun _ => printed_ask (fun session => session.printed_changeFiles _) _

theorem logsLines_locateConfig (context : Context) (loading : Bool) :
    LogsLines (locateConfig context loading : Task (StateM Machine) ConfigPlace) :=
  logsLines_require _ _

theorem logsLines_loadConfig (context : Context) :
    LogsLines (loadConfig context : Task (StateM Machine) Config) := by
  unfold loadConfig
  refine (logsLines_locateConfig _ _).bind fun place => ?_
  refine (logsLines_contains _).bind fun present => ?_
  split
  · exact (logsLines_readText _ _).bind fun text => logsLines_require _ _
  · split
    · exact logsLines_throw _
    · exact (logsLines_showLog _ _).bind fun _ => logsLines_pure _

theorem logsLines_buildEngine (context : Context) (rewrite : RewriteOptions) :
    LogsLines (buildEngine context rewrite : Task (StateM Machine) Engine) := by
  unfold buildEngine
  refine (logsLines_loadConfig _).bind fun config => ?_
  refine (logsLines_require _ _).bind fun engine => ?_
  exact (logsLines_showLog _ _).bind fun _ => logsLines_pure _

theorem logsLines_readSource (source : Source) :
    LogsLines (readSource source : Task (StateM Machine) String) := by
  unfold readSource
  cases source with
  | file path => exact logsLines_readText _ _
  | input =>
    have read : LogsLines
        (attempt (.sourceUnreadable .input) Host.readInput : Task (StateM Machine) Content) :=
      Keeps.logsLines (printed_ask fun _ => rfl)
    exact read.bind fun content => logsLines_require _ content.asText

theorem logsLines_deliver (mode : OutputMode) (options : TransformOptions) (source : Source)
    (processed : Processed) :
    LogsLines (deliver mode options source processed : Task (StateM Machine) FileReport) := by
  unfold deliver
  dsimp only
  split
  · exact logsLines_pure _
  · split
    · exact (keeps_printed_writeFile _ _ _).logsLines.bind fun _ => logsLines_pure _
    · split
      · exact logsLines_pure _
      · split
        · exact logsLines_pure _
        · exact (logsLines_print _).bind fun _ => logsLines_pure _

theorem logsLines_transformSources (context : Context) (options : TransformOptions)
    (engine : Engine) (sources : List Source) :
    LogsLines (transformSources context options engine sources :
      Task (StateM Machine) (List FileReport)) := by
  induction sources with
  | nil => exact logsLines_pure []
  | cons source sources ih =>
    have first : LogsLines (transformSource context options engine source :
        Task (StateM Machine) FileReport) := by
      unfold transformSource
      refine (logsLines_readSource source).bind fun css => ?_
      refine (logsLines_showLog _ _).bind fun _ => ?_
      refine LogsLines.when (logsLines_printError (isLines_join fun text mem => ?_))
        (logsLines_deliver _ _ _ _)
      obtain ⟨c, -, rfl⟩ := List.mem_map.mp mem
      exact c.isLines_announcement _
    exact first.bind fun report => ih.bind fun reports => logsLines_pure _

theorem logsLines_transform (context : Context) (options : TransformOptions) :
    LogsLines (transform context options : Task (StateM Machine) Unit) := by
  unfold transform
  refine (logsLines_buildEngine _ _).bind fun engine => ?_
  refine LogsLines.when (logsLines_throw _) ?_
  refine LogsLines.when (logsLines_throw _) ?_
  refine (logsLines_transformSources _ _ _ _).bind fun reports => ?_
  unfold concludeTransform
  refine LogsLines.when (logsLines_print _) ?_
  refine LogsLines.when (logsLines_throw _) ?_
  split
  · exact logsLines_print _
  · exact logsLines_pure _

theorem logsLines_query (context : Context) (params : String) (rewrite : RewriteOptions) :
    LogsLines (query context params rewrite : Task (StateM Machine) Unit) := by
  unfold query
  refine (logsLines_buildEngine _ _).bind fun engine => ?_
  refine (logsLines_showLog _ _).bind fun _ => ?_
  refine LogsLines.when (logsLines_printError (isLines_join fun text mem => ?_)) ?_
  · obtain ⟨w, -, rfl⟩ := List.mem_map.mp mem
    exact .inr ⟨_, rfl⟩
  · split
    · exact logsLines_print _
    · exact logsLines_print _
    · exact logsLines_pure _

theorem printed_bind {α β : Type} {x : StateM Machine α} {f : α → StateM Machine β}
    (first : ∀ machine, (x machine).2.printed = machine.printed)
    (second : ∀ a machine, (f a machine).2.printed = machine.printed) (machine : Machine) :
    ((x >>= f) machine).2.printed = machine.printed :=
  (second _ _).trans (first machine)

theorem printed_makeDirectories (absolute : Bool) (names : List String) (machine : Machine) :
    ((makeDirectories absolute names : StateM Machine (Except FileError Unit)) machine).2.printed =
      machine.printed := by
  have made (path : Path) (machine : Machine) :
      ((Host.makeDirectory path : StateM Machine (Except FileError Unit)) machine).2.printed =
        machine.printed :=
    printed_ask (fun session => session.printed_changeFiles _) machine
  have settled (path : Path) (machine : Machine) :
      ((Host.isDirectory path : StateM Machine Bool) machine).2.printed = machine.printed :=
    printed_ask (fun _ => rfl) machine
  induction names generalizing machine with
  | nil => rfl
  | cons name outer ih =>
    unfold makeDirectories
    refine printed_bind (made _) (fun result machine => ?_) machine
    split
    · refine printed_bind ih (fun result machine => ?_) machine
      split
      · refine printed_bind (made _) (fun result machine => ?_) machine
        cases result with
        | ok nothing => rfl
        | error cause => exact printed_bind (settled _) (fun _ _ => rfl) machine
      · rfl
    · cases result with
      | ok nothing => rfl
      | error cause => exact printed_bind (settled _) (fun _ _ => rfl) machine

theorem keeps_printed_saveConfig (config : Config) (path : Path) :
    Keeps printed (saveConfig config path : Task (StateM Machine) Unit) := by
  have made : Keeps printed (attempt .directoriesNotMade
      (makeDirectories path.isAbsolute path.outerNames) : Task (StateM Machine) Unit) :=
    printed_makeDirectories _ _
  exact made.bind fun _ => keeps_printed_writeFile _ _ _

theorem logsLines_verifyFile (path : Path) :
    LogsLines (verifyFile path : Task (StateM Machine) (List String)) := by
  unfold verifyFile
  refine (logsLines_contains _).bind fun present => ?_
  refine LogsLines.when (logsLines_throw _) ?_
  refine (logsLines_readText _ _).bind fun text => ?_
  exact (logsLines_require _ _).bind fun problems => logsLines_pure _

theorem logsLines_runConfig (context : Context) (command : ConfigCommand) :
    LogsLines (runConfig context command : Task (StateM Machine) Unit) := by
  cases command with
  | current => exact (logsLines_loadConfig _).bind fun config => logsLines_print _
  | location => exact (logsLines_locateConfig _ _).bind fun place => logsLines_print _
  | sample => exact logsLines_print _
  | create force =>
    refine (logsLines_locateConfig _ _).bind fun place => ?_
    refine (logsLines_contains _).bind fun present => ?_
    refine LogsLines.when (logsLines_throw _) ?_
    refine (keeps_printed_saveConfig _ _).logsLines.bind fun _ => ?_
    split
    · exact logsLines_print _
    · exact logsLines_pure _
  | verify =>
    refine (logsLines_locateConfig _ _).bind fun place => ?_
    refine (logsLines_verifyFile _).bind fun problems => ?_
    split
    -- There are problems, so a report on them comes before the failure.
    · dsimp only
      split
      · exact (logsLines_print _).bind fun _ => logsLines_throw _
      · exact (logsLines_print _).bind fun _ => logsLines_throw _
    · dsimp only
      split
      · exact (logsLines_print _).bind fun _ => logsLines_pure _
      · exact LogsLines.when (logsLines_print _) (logsLines_pure _)

end Task

theorem Invocation.logsLines_task (invocation : Invocation) (environment : Environment) :
    Task.LogsLines (invocation.task environment) := by
  obtain ⟨globals, command⟩ := invocation
  cases command with
  | transform options => exact Task.logsLines_transform _ options
  | query params rewrite => exact Task.logsLines_query _ params rewrite
  | config command => exact Task.logsLines_runConfig _ command
  | completions shell => exact Task.logsLines_pure ()

end MediaRange
