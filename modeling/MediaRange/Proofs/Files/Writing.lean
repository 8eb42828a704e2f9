import MediaRange.Files.Store
import MediaRange.Proofs.Results

/-!
# Writing a file

A file that is written holds the new text, and nothing else changes. Paths lead where they led
before, since only the way through directories counts; so `read_write` holds for every path to the
same place.
-/

namespace MediaRange.FileStore

variable {store after : FileStore} {path : Path} {location : Location} {content : Content}
  {text : String}

theorem read_eq_ok_iff :
    store.read path = .ok content ↔ ∃ location, store.locate path = .ok location ∧
      store.node? location = some (.file content) ∧ path.endsWithSlash = false := by
  rw [read, bind_eq_ok_iff]
  constructor
  · rintro ⟨node, found, h⟩
    rw [lookup, bind_eq_ok_iff] at found
    obtain ⟨location, located, found⟩ := found
    split at found
    · cases found
    · cases found
      cases h
    · rename_i content' held
      split at found
      · cases found
      · rename_i noSlash
        cases found
        cases h
        exact ⟨location, located, held, by simpa using noSlash⟩
  · rintro ⟨location, located, held, noSlash⟩
    refine ⟨.file content, ?_, rfl⟩
    rw [lookup, bind_eq_ok_iff]
    refine ⟨location, located, ?_⟩
    rw [held]
    simp [noSlash]

theorem write_eq_ok_iff :
    store.write path text = .ok after ↔ ∃ location, store.locate path = .ok location ∧
      path.endsWithSlash = false ∧ store.node? location ≠ some .directory ∧
        after = store.put location (.file (.text text)) := by
  rw [write, bind_eq_ok_iff]
  constructor
  · rintro ⟨location, located, h⟩
    split at h
    · cases h
    · rename_i free
      simp only [Bool.or_eq_true, decide_eq_true_eq, not_or, Bool.not_eq_true] at free
      cases h
      exact ⟨location, located, free.1, free.2, rfl⟩
  · rintro ⟨location, located, noSlash, free, rfl⟩
    exact ⟨location, located, by simp [noSlash, free]⟩

theorem node?_root (store : FileStore) : store.node? [] = some .directory := rfl

section

variable (free : store.node? location ≠ some .directory)
include free

theorem node?_put_file (content : Content) (other : Location) :
    (store.put location (.file content)).node? other =
      if other = location then some (.file content) else store.node? other := by
  refine node?_put store location other _ ?_
  rintro rfl
  exact free store.node?_root

theorem enter_put (content : Content) {start next : Location} {name : String}
    (h : store.enter start name = .ok next) :
    (store.put location (.file content)).enter start name = .ok next := by
  rw [enter] at h ⊢
  rw [node?_put_file free]
  split at h
  · cases h
  · cases h
  · rename_i directory
    have other : start ≠ location := by
      rintro rfl
      exact free directory
    rw [if_neg other, directory]
    exact h

theorem locate_put (content : Content) {target : Location} (h : store.locate path = .ok target) :
    (store.put location (.file content)).locate path = .ok target := by
  rw [locate] at h ⊢
  split at h
  · cases h
  · rename_i named
    rw [if_neg named]
    -- The walk goes through directories, of which none is overwritten.
    have walk : ∀ (names : List String) (start : Location),
        names.foldlM store.enter start = .ok target →
        names.foldlM (store.put location (.file content)).enter start = .ok target := by
      intro names
      induction names with
      | nil => exact fun _ h => h
      | cons name names ih =>
        intro start h
        rw [List.foldlM_cons, bind_eq_ok_iff] at h ⊢
        obtain ⟨next, entered, rest⟩ := h
        exact ⟨next, enter_put free content entered, ih next rest⟩
    exact walk _ _ h

end

section

variable {old : Content} (held : store.node? location = some (.file old)) (content : Content)
include held

theorem enter_overwrite : (store.put location (.file content)).enter = store.enter := by
  have free : store.node? location ≠ some .directory := by
    rw [held]
    intro h
    cases h
  funext start name
  rw [enter, enter, node?_put_file free]
  by_cases here : start = location
  · subst here
    rw [if_pos rfl, held]
  · rw [if_neg here]

/-- All paths lead where they led before, also those that lead nowhere. -/
theorem locate_overwrite : (store.put location (.file content)).locate = store.locate := by
  funext path
  unfold locate
  rw [enter_overwrite held]
  rfl

end

theorem read_write (h : store.write path text = .ok after) :
    after.read path = .ok (.text text) := by
  obtain ⟨location, located, noSlash, free, rfl⟩ := write_eq_ok_iff.mp h
  refine read_eq_ok_iff.mpr ⟨location, locate_put free _ located, ?_, noSlash⟩
  rw [node?_put_file free, if_pos rfl]

theorem exists_write (h : store.read path = .ok content) (text : String) :
    ∃ location, store.locate path = .ok location ∧
      store.node? location = some (.file content) ∧
      store.write path text = .ok (store.put location (.file (.text text))) := by
  obtain ⟨location, located, held, noSlash⟩ := read_eq_ok_iff.mp h
  have free : store.node? location ≠ some .directory := by
    rw [held]
    intro h
    cases h
  exact ⟨location, located, held, write_eq_ok_iff.mpr ⟨location, located, noSlash, free, rfl⟩⟩

end MediaRange.FileStore
