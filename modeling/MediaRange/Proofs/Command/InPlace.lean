import Mathlib.Data.List.Forall2
import MediaRange.Proofs.Command.Steps
import MediaRange.Proofs.Stylesheet.Shrinking

/-!
# Rewriting files in place

`Engine.inPlace` is what one file makes of all of them. A file loses comparison signs when it is
rewritten, so no later step can bring the old text back, and a path that is given again does no
harm: by `changesFile_foldl_inPlace` the files differ in the end exactly if one of them had a range.
-/

namespace MediaRange

/-- What rewriting a file in place makes of the files, and of the list of those that were to be
written. -/
def Engine.inPlace (engine : Engine) (store : FileStore × List Path) (path : Path) :
    FileStore × List Path :=
  match store.1.read path with
  | .ok (.text text) =>
    if engine.changes text then
      match store.1.write path (engine.newCss text) with
      | .ok files => (files, store.2 ++ [path])
      | .error _ => (store.1, store.2 ++ [path])
    else store
  | _ => store

namespace FileStore

/-- The file at a location has lost comparison signs. -/
def ShrunkAt (before after : FileStore) (location : Location) : Prop :=
  ∃ old new, before.node? location = some (.file (.text old)) ∧
    after.node? location = some (.file (.text new)) ∧ signCount new.toList < signCount old.toList

/-- Every file is as it was, or has lost comparison signs. -/
def Shrunk (before after : FileStore) : Prop :=
  ∀ location, after.node? location = before.node? location ∨ before.ShrunkAt after location

/-- A file has another content than before. -/
def ChangesFile (before after : FileStore) : Prop :=
  ∃ location content, before.node? location = some (.file content) ∧
    after.node? location ≠ some (.file content)

variable {a b c : FileStore} {location : Location}

theorem Shrunk.refl (store : FileStore) : store.Shrunk store := fun _ => .inl rfl

theorem Shrunk.trans_at (first : a.Shrunk b) (second : b.ShrunkAt c location) :
    a.ShrunkAt c location := by
  obtain ⟨middle, new, held, written, fewer⟩ := second
  rcases first location with same | ⟨old, middle', held', written', fewer'⟩
  · exact ⟨middle, new, same ▸ held, written, fewer⟩
  · rw [written'] at held
    cases held
    exact ⟨old, new, held', written, Nat.lt_trans fewer fewer'⟩

theorem ShrunkAt.trans (first : a.ShrunkAt b location) (second : b.Shrunk c) :
    a.ShrunkAt c location := by
  obtain ⟨old, middle, held, written, fewer⟩ := first
  rcases second location with same | ⟨middle', new, held', written', fewer'⟩
  · exact ⟨old, middle, held, same.trans written, fewer⟩
  · rw [written] at held'
    cases held'
    exact ⟨old, new, held, written', Nat.lt_trans fewer' fewer⟩

theorem Shrunk.trans (first : a.Shrunk b) (second : b.Shrunk c) : a.Shrunk c := by
  intro location
  rcases second location with same | shrunk
  · rcases first location with same' | shrunk
    · exact .inl (same.trans same')
    · exact .inr (shrunk.trans second)
  · exact .inr (first.trans_at shrunk)

theorem ShrunkAt.changesFile (h : a.ShrunkAt b location) : a.ChangesFile b := by
  obtain ⟨old, new, held, written, fewer⟩ := h
  refine ⟨location, .text old, held, fun same => ?_⟩
  rw [written] at same
  cases same
  exact Nat.lt_irrefl _ fewer

theorem not_changesFile_self (store : FileStore) : ¬store.ChangesFile store := by
  rintro ⟨location, content, held, differs⟩
  exact differs held

end FileStore

namespace Engine

variable {engine : Engine} {store : FileStore × List Path} {path : Path} {text : String}

/-! ### One file -/

theorem inPlace_eq_self (unchanged : ∀ text, store.1.read path = .ok (.text text) →
    engine.changes text = false) : engine.inPlace store path = store := by
  rw [inPlace]
  split
  · rename_i text held
    rw [if_neg (by simp [unchanged text held])]
  · rfl

theorem inPlace_unchanged (held : store.1.read path = .ok (.text text))
    (unchanged : engine.changes text = false) : engine.inPlace store path = store := by
  refine inPlace_eq_self fun text' held' => ?_
  rw [held] at held'
  cases held'
  exact unchanged

theorem exists_inPlace_changed (held : store.1.read path = .ok (.text text))
    (changed : engine.changes text = true) :
    ∃ location, store.1.locate path = .ok location ∧
      store.1.node? location = some (.file (.text text)) ∧
      store.1.write path (engine.newCss text) =
        .ok (store.1.put location (.file (.text (engine.newCss text)))) ∧
      engine.inPlace store path =
        (store.1.put location (.file (.text (engine.newCss text))), store.2 ++ [path]) := by
  obtain ⟨location, located, node, written⟩ :=
    FileStore.exists_write held (engine.newCss text)
  refine ⟨location, located, node, written, ?_⟩
  rw [inPlace, held]
  dsimp only
  rw [if_pos changed, written]

theorem inPlace_cases (engine : Engine) (store : FileStore × List Path) (path : Path) :
    engine.inPlace store path = store ∨ ∃ location text, engine.changes text = true ∧
      store.1.node? location = some (.file (.text text)) ∧
      engine.inPlace store path =
        (store.1.put location (.file (.text (engine.newCss text))), store.2 ++ [path]) := by
  by_cases h : ∃ text, store.1.read path = .ok (.text text) ∧ engine.changes text = true
  · obtain ⟨text, held, changed⟩ := h
    obtain ⟨location, -, node, -, step⟩ := exists_inPlace_changed held changed
    exact .inr ⟨location, text, changed, node, step⟩
  · refine .inl (inPlace_eq_self fun text held => ?_)
    by_contra changed
    exact h ⟨text, held, by simpa using changed⟩

theorem free_of_node? {store : FileStore} {location : Location} {content : Content}
    (held : store.node? location = some (.file content)) :
    store.node? location ≠ some .directory := by
  rw [held]
  intro h
  cases h

theorem locate_inPlace (engine : Engine) (store : FileStore × List Path) (path : Path) :
    (engine.inPlace store path).1.locate = store.1.locate := by
  rcases inPlace_cases engine store path with same | ⟨written, text, -, node, step⟩
  · rw [same]
  · rw [step]
    exact FileStore.locate_overwrite node _

theorem read_inPlace (engine : Engine) (path : Path) {other : Path}
    (held : store.1.read other = .ok (.text text)) :
    ∃ text, (engine.inPlace store path).1.read other = .ok (.text text) := by
  obtain ⟨location, located, node, noSlash⟩ := FileStore.read_eq_ok_iff.mp held
  rw [← locate_inPlace engine store path] at located
  rcases inPlace_cases engine store path with same | ⟨written, old, -, node', step⟩
  · rw [same]
    exact ⟨text, held⟩
  · rw [step] at located ⊢
    have put := FileStore.node?_put_file (free_of_node? node') (.text (engine.newCss old)) location
    by_cases here : location = written
    · rw [if_pos here] at put
      exact ⟨_, FileStore.read_eq_ok_iff.mpr ⟨location, located, put, noSlash⟩⟩
    · rw [if_neg here, node] at put
      exact ⟨text, FileStore.read_eq_ok_iff.mpr ⟨location, located, put, noSlash⟩⟩

section

variable (shrinks : engine.Shrinks)
include shrinks

theorem signCount_newCss_lt (changed : engine.changes text = true) :
    signCount (engine.newCss text).toList < signCount text.toList := by
  rw [newCss, String.toList_ofList]
  exact signCount_process_lt shrinks changed

theorem shrunk_inPlace (store : FileStore × List Path) (path : Path) :
    store.1.Shrunk (engine.inPlace store path).1 := by
  rcases inPlace_cases engine store path with same | ⟨written, text, changed, node, step⟩
  · rw [same]
    exact .refl _
  · rw [step]
    intro location
    have put := FileStore.node?_put_file (free_of_node? node) (.text (engine.newCss text)) location
    by_cases here : location = written
    · subst here
      rw [if_pos rfl] at put
      exact .inr ⟨text, _, node, put, signCount_newCss_lt shrinks changed⟩
    · rw [if_neg here] at put
      exact .inl put

theorem shrunk_foldl_inPlace (paths : List Path) (store : FileStore × List Path) :
    store.1.Shrunk (paths.foldl engine.inPlace store).1 := by
  induction paths generalizing store with
  | nil => exact .refl _
  | cons path paths ih => exact (shrunk_inPlace shrinks store path).trans (ih _)

/-- A file with a range has fewer signs in the end, however often and under whatever other paths it
is rewritten. -/
theorem exists_shrunkAt {paths : List Path} (mem : path ∈ paths)
    (held : store.1.read path = .ok (.text text)) (changed : engine.changes text = true) :
    ∃ location, store.1.ShrunkAt (paths.foldl engine.inPlace store).1 location := by
  obtain ⟨location, located, node, noSlash⟩ := FileStore.read_eq_ok_iff.mp held
  refine ⟨location, ?_⟩
  induction paths generalizing store with
  | nil => cases mem
  | cons first paths ih =>
    rw [List.foldl_cons]
    have later := shrunk_foldl_inPlace shrinks paths (engine.inPlace store first)
    -- The first file may lead to the same place, and then the signs are gone already. Else the
    -- text is still there when its turn comes.
    rcases shrunk_inPlace shrinks store first location with same | shrunk
    · rcases List.mem_cons.mp mem with rfl | mem
      · obtain ⟨location', located', -, -, step⟩ := exists_inPlace_changed held changed
        rw [located] at located'
        cases located'
        have put := FileStore.node?_put_file (free_of_node? node) (.text (engine.newCss text))
          location
        rw [if_pos rfl] at put
        rw [step] at same
        refine FileStore.ShrunkAt.trans ⟨text, engine.newCss text, node, ?_,
          signCount_newCss_lt shrinks changed⟩ later
        rw [step]
        exact put
      · rw [← locate_inPlace engine store first] at located
        have node' := same.trans node
        have held' := FileStore.read_eq_ok_iff.mpr ⟨location, located, node', noSlash⟩
        have shrunk := ih mem held' located node'
        exact (shrunk_inPlace shrinks store first).trans_at shrunk
    · exact shrunk.trans later

end

/-! ### All files -/

theorem foldl_inPlace_unchanged {paths : List Path}
    (unchanged : ∀ path ∈ paths, ∀ text, store.1.read path = .ok (.text text) →
      engine.changes text = false) :
    paths.foldl engine.inPlace store = store := by
  induction paths with
  | nil => rfl
  | cons path paths ih =>
    obtain ⟨here, later⟩ := List.forall_mem_cons.mp unchanged
    rw [List.foldl_cons, inPlace_eq_self here]
    exact ih later

/-- Rewriting in place changes a file exactly if one of the files has a range. -/
theorem changesFile_foldl_inPlace (shrinks : engine.Shrinks) {paths : List Path} :
    store.1.ChangesFile (paths.foldl engine.inPlace store).1 ↔
      ∃ path ∈ paths, ∃ text,
        store.1.read path = .ok (.text text) ∧ engine.changes text = true := by
  constructor
  · intro differs
    by_contra none
    have same : paths.foldl engine.inPlace store = store := by
      refine foldl_inPlace_unchanged fun path mem text held => ?_
      by_contra changed
      exact none ⟨path, mem, text, held, by simpa using changed⟩
    rw [same] at differs
    exact FileStore.not_changesFile_self _ differs
  · rintro ⟨path, mem, text, held, changed⟩
    obtain ⟨location, shrunk⟩ := exists_shrunkAt shrinks mem held changed
    exact shrunk.changesFile

end Engine

/-! ### Files apart -/

namespace Engine

variable {engine : Engine} {store : FileStore × List Path} {path other : Path} {text : String}

theorem newCss_of_unchanged (unchanged : engine.changes text = false) :
    engine.newCss text = text := by
  have none : (Stylesheet.process engine text.toList).value.changes = [] := by
    simpa [changes, Processed.isChanged] using unchanged
  have same := (process_isSplice engine text.toList).2.resolve_left fun some => some none
  rw [newCss, same, String.ofList_toList]

theorem read_inPlace_self (held : store.1.read path = .ok (.text text)) :
    (engine.inPlace store path).1.read path = .ok (.text (engine.newCss text)) := by
  cases changed : engine.changes text with
  | false => rw [inPlace_unchanged held changed, newCss_of_unchanged changed, held]
  | true =>
    obtain ⟨location, -, -, written, step⟩ := exists_inPlace_changed held changed
    rw [step]
    exact FileStore.read_write written

theorem read_inPlace_other (apart : store.1.locate path ≠ store.1.locate other)
    (held : store.1.read path = .ok (.text text)) {content : Content}
    (held' : store.1.read other = .ok content) :
    (engine.inPlace store path).1.read other = .ok content := by
  cases changed : engine.changes text with
  | false => rw [inPlace_unchanged held changed, held']
  | true =>
    obtain ⟨location, located, node, -, step⟩ := exists_inPlace_changed held changed
    obtain ⟨location', located', node', noSlash⟩ := FileStore.read_eq_ok_iff.mp held'
    have elsewhere : location' ≠ location := by
      rintro rfl
      exact apart (located.trans located'.symm)
    rw [← locate_inPlace engine store path] at located'
    rw [step] at located' ⊢
    refine FileStore.read_eq_ok_iff.mpr ⟨location', located', ?_, noSlash⟩
    rw [FileStore.node?_put_file (free_of_node? node), if_neg elsewhere, node']

section

variable {paths : List Path} {texts : List String}

theorem holds_inPlace (engine : Engine) (held : store.1.read path = .ok (.text text))
    (apart : store.1.locate path ∉ paths.map store.1.locate)
    (holds : List.Forall₂ (fun p t => store.1.read p = .ok (.text t)) paths texts) :
    List.Forall₂ (fun p t => (engine.inPlace store path).1.read p = .ok (.text t)) paths texts := by
  induction holds with
  | nil => exact .nil
  | @cons p t paths texts held' _ ih =>
    rw [List.map_cons, List.mem_cons, not_or] at apart
    exact .cons (read_inPlace_other apart.1 held held') (ih apart.2)

theorem read_foldl_inPlace_other (engine : Engine) {content : Content}
    (held' : store.1.read other = .ok content)
    (holds : List.Forall₂ (fun p t => store.1.read p = .ok (.text t)) paths texts)
    (apart : (paths.map store.1.locate).Nodup)
    (elsewhere : store.1.locate other ∉ paths.map store.1.locate) :
    (paths.foldl engine.inPlace store).1.read other = .ok content := by
  induction paths generalizing store texts with
  | nil => exact held'
  | cons p paths ih =>
    obtain ⟨t, texts, held, rest, rfl⟩ := List.forall₂_cons_left_iff.mp holds
    obtain ⟨alone, apart⟩ := List.nodup_cons.mp apart
    rw [List.map_cons, List.mem_cons, not_or] at elsewhere
    have here : (engine.inPlace store p).1.read other = .ok content :=
      read_inPlace_other (Ne.symm elsewhere.1) held held'
    rw [List.foldl_cons]
    rw [← locate_inPlace engine store p] at apart elsewhere
    exact ih here (holds_inPlace engine held alone rest) apart elsewhere.2

/-- Files in different places each hold their new text in the end, and only those that had a range
are written. -/
theorem foldl_inPlace_apart (engine : Engine)
    (holds : List.Forall₂ (fun p t => store.1.read p = .ok (.text t)) paths texts)
    (apart : (paths.map store.1.locate).Nodup) :
    List.Forall₂ (fun p t =>
        (paths.foldl engine.inPlace store).1.read p = .ok (.text (engine.newCss t))) paths texts ∧
      (paths.foldl engine.inPlace store).2 = store.2 ++
        ((paths.zip texts).filter fun entry => engine.changes entry.2).map Prod.fst := by
  induction paths generalizing store texts with
  | nil =>
    cases holds
    exact ⟨.nil, (List.append_nil _).symm⟩
  | cons p paths ih =>
    obtain ⟨t, texts, held, rest, rfl⟩ := List.forall₂_cons_left_iff.mp holds
    obtain ⟨alone, apart⟩ := List.nodup_cons.mp apart
    have holds := holds_inPlace engine held alone rest
    rw [← locate_inPlace engine store p] at alone apart
    obtain ⟨later, writes⟩ := ih holds apart
    have here := read_foldl_inPlace_other engine (read_inPlace_self held) holds apart alone
    refine ⟨.cons here later, ?_⟩
    rw [List.foldl_cons, writes, List.zip_cons_cons]
    cases changed : engine.changes t with
    | false => rw [inPlace_unchanged held changed, List.filter_cons_of_neg (by simp [changed])]
    | true =>
      obtain ⟨location', -, -, -, step⟩ := exists_inPlace_changed held changed
      rw [step]
      simp only [List.filter_cons, changed, if_true, List.map_cons, List.append_assoc]
      rfl

end

end Engine

/-! ### The run -/

namespace Machine

/-- The path leads to a text, and the file there can be read and written. -/
structure Opens (machine : Machine) (path : Path) : Prop where
  reads : machine.Grants (.readFile path)
  writes : machine.Grants (.writeFile path)
  holds : ∃ text, machine.session.files.read path = .ok (.text text)

theorem supplies_of_opens {machine : Machine} (input : Content) {paths : List Path}
    (opens : ∀ path ∈ paths, machine.Opens path) :
    ∃ texts, machine.Supplies input (paths.map .file) texts ∧
      List.Forall₂ (fun path text => machine.session.files.read path = .ok (.text text))
        paths texts := by
  induction paths with
  | nil => exact ⟨[], .nil, .nil⟩
  | cons path paths ih =>
    obtain ⟨here, later⟩ := List.forall_mem_cons.mp opens
    obtain ⟨text, held⟩ := here.holds
    obtain ⟨texts, supplied, holds⟩ := ih later
    exact ⟨text :: texts, .file here.reads held supplied, .cons held holds⟩

end Machine

namespace Task

open Machine

variable {options : TransformOptions} {machine : Machine}

theorem exists_gives_inPlace (context : Context) (unchecked : options.check = false)
    (inPlace : options.inPlace = true) (output : options.output = none) (engine : Engine)
    {path : Path} (opens : machine.Opens path) :
    ∃ report after, (transformSource context options engine (.file path)).Gives machine report
        after ∧
      after.store = engine.inPlace machine.store path ∧ after.refusal = machine.refusal := by
  obtain ⟨text, held⟩ := opens.holds
  have supplied : machine.Supplies machine.session.input [.file path] [text] :=
    .file opens.reads held .nil
  obtain ⟨middle, delivered, same, -⟩ := on_transformSource context options engine supplied
  have store : middle.store = machine.store :=
    show middle.lasting.store = machine.lasting.store from congrArg Scene.store same
  have refusal : middle.refusal = machine.refusal := congrArg Scene.refusal same
  have held : machine.store.1.read path = .ok (.text text) := held
  cases changed : engine.changes text with
  | false =>
    let report := plainReport (.file path) (Stylesheet.process engine text.toList).value
    refine ⟨report, middle, ?_, ?_, refusal⟩
    · rw [Gives, delivered, deliver_unchanged unchecked inPlace output changed]
      rfl
    · rw [Engine.inPlace_unchanged held changed, store]
  | true =>
    obtain ⟨location, -, -, written, step⟩ := Engine.exists_inPlace_changed held changed
    have target : options.target? (.file path)
        (Stylesheet.process engine text.toList).value.isChanged = some path :=
      target?_inPlace inPlace changed
    rw [← store] at written
    obtain ⟨report, after, given, scene⟩ :=
      exists_gives_deliver_write unchecked target (opens.writes.congr refusal _) written
    refine ⟨report, after, delivered.trans given, ?_, ?_⟩
    · rw [step, ← store]
      exact congrArg Scene.store scene
    · exact (congrArg Scene.refusal scene).trans refusal

theorem exists_gives_foldl_inPlace (context : Context) (unchecked : options.check = false)
    (inPlace : options.inPlace = true) (output : options.output = none) (engine : Engine)
    {paths : List Path} (opens : ∀ path ∈ paths, machine.Opens path) :
    ∃ reports after, (transformSources context options engine (paths.map .file)).Gives machine
        reports after ∧
      after.store = paths.foldl engine.inPlace machine.store := by
  induction paths generalizing machine with
  | nil => exact ⟨[], machine, rfl, rfl⟩
  | cons path paths ih =>
    obtain ⟨here, later⟩ := List.forall_mem_cons.mp opens
    obtain ⟨report, middle, first, store, refusal⟩ :=
      exists_gives_inPlace context unchecked inPlace output engine here
    -- The later files may have been rewritten by now, but they can still be opened.
    have opens : ∀ path ∈ paths, middle.Opens path := by
      intro other mem
      obtain ⟨reads, writes, text, held⟩ := later other mem
      obtain ⟨text', held'⟩ := Engine.read_inPlace engine path
        (show machine.store.1.read other = _ from held)
      rw [← store] at held'
      exact ⟨reads.congr refusal, writes.congr refusal, text', held'⟩
    obtain ⟨reports, after, rest, store'⟩ := ih opens
    refine ⟨_, after, first.bind (rest.bind (gives_pure _ _)), ?_⟩
    rw [store', store, List.foldl_cons]

end Task

end MediaRange
