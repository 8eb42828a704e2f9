import MediaRange.Proofs.Pattern.Lockstep

/-!
# Reading under other flags

Whether a text is a pattern does not depend on the flags for case and lines: they change the sets
and conditions of a pattern, never its shape. `read?_of_flags` is the result of the lockstep.
-/

namespace MediaRange.Pattern

/-- The pattern without its sets and conditions. -/
def shape : Pattern → Pattern
  | empty => empty
  | one _ => one .none
  | look _ => look .textStart
  | mark m => mark m
  | seq p q => seq p.shape q.shape
  | alt p q => alt p.shape q.shape
  | opt greedy p => opt greedy p.shape
  | plus greedy p => plus greedy p.shape
  | again greedy p => again greedy p.shape

theorem size_shape (p : Pattern) : p.shape.size = p.size := by
  induction p with
  | seq p q ihp ihq => simp [shape, size, ihp, ihq]
  | alt p q ihp ihq => simp [shape, size, ihp, ihq]
  | opt greedy p ih => simp [shape, size, ih]
  | plus greedy p ih => simp [shape, size, ih]
  | again greedy p ih => simp [shape, size, ih]
  | _ => rfl

/-! ### Classes -/

namespace ClassReader

/-- The same has been read, but for the sets. -/
structure Alike (x y : ClassReader) : Prop where
  mode : x.mode = y.mode
  inner : x.inner.nesting = y.inner.nesting
  outer : x.outer.map OpenClass.nesting = y.outer.map OpenClass.nesting

inductive AlikeParts : ClassReader ⊕ ReadClass → ClassReader ⊕ ReadClass → Prop where
  | more {x y : ClassReader} (h : Alike x y) : AlikeParts (.inl x) (.inl y)
  | complete {s t : ReadClass} (h : s.depth = t.depth) : AlikeParts (.inr s) (.inr t)

inductive AlikeResults {α β : Type} (related : α → β → Prop) :
    Except PatternError α → Except PatternError β → Prop where
  | ok {a : α} {b : β} (h : related a b) : AlikeResults related (.ok a) (.ok b)
  | error (e : PatternError) : AlikeResults related (.error e) (.error e)

variable {x y : ClassReader} (b b' : Bool)

theorem Alike.of_inner (h : Alike x y) {i j : OpenClass} (same : i.nesting = j.nesting)
    (mode : ClassMode) : Alike ⟨i, x.outer, mode⟩ ⟨j, y.outer, mode⟩ := ⟨rfl, same, h.outer⟩

theorem Alike.of_mode (h : Alike x y) (mode : ClassMode) :
    Alike { x with mode := mode } { y with mode := mode } := h.of_inner h.inner mode

theorem Alike.operate (h : Alike x y) (operation : ClassOperation) :
    Alike (x.operate b operation) (y.operate b' operation) :=
  h.of_inner (congrArg ClassNesting.operate h.inner) _

theorem Alike.nest (h : Alike x y) : Alike x.nest y.nest :=
  ⟨rfl, rfl, congrArg₂ List.cons h.inner h.outer⟩

def AlikeClasses (i j : OpenClass) : Prop := i.nesting = j.nesting

theorem alike_addSet {i j : OpenClass} (h : AlikeClasses i j) (s t : CharSet) {d e : Nat}
    (depth : d = e) : AlikeClasses (i.addSet s d) (j.addSet t e) :=
  congrArg₂ ClassNesting.add h depth

theorem alike_addRange {i j : OpenClass} (h : AlikeClasses i j) (first last first' last' : Char) :
    AlikeClasses (i.addRange first last) (j.addRange first' last') :=
  congrArg (ClassNesting.add · 0) h

theorem alike_close (h : Alike x y) : AlikeParts (x.close b) (y.close b') := by
  obtain ⟨inner, outer, mode⟩ := x
  obtain ⟨inner', outer', mode'⟩ := y
  have depth : inner.nesting.depth = inner'.nesting.depth := congrArg ClassNesting.depth h.inner
  have outside := h.outer
  cases outer with
  | nil =>
    cases outer' with
    | nil => exact .complete depth
    | cons => cases outside
  | cons next outer =>
    cases outer' with
    | nil => cases outside
    | cons next' outer' =>
      obtain ⟨same, rest⟩ := List.cons.inj outside
      exact .more ⟨rfl, alike_addSet same _ _ depth, rest⟩

theorem alike_item (h : Alike x y) (c : Char) : AlikeParts (x.item b c) (y.item b' c) := by
  unfold item
  split
  · exact .more (h.of_mode _)
  · exact alike_close b b' h
  all_goals exact .more (h.of_mode _)

theorem alike_add {i j : OpenClass} (h : AlikeClasses i j) (primitive : Primitive) :
    AlikeResults AlikeClasses (i.add primitive) (j.add primitive) := by
  cases primitive with
  | look l => exact .error _
  | literal c => exact .ok (alike_addRange h c c c c)
  | set s => exact .ok (alike_addSet h s s rfl)

theorem alike_addBetween {i j : OpenClass} (h : AlikeClasses i j) (first last : Primitive) :
    AlikeResults AlikeClasses (i.addBetween first last) (j.addBetween first last) := by
  unfold OpenClass.addBetween
  split
  · split
    · exact .ok (alike_addRange h _ _ _ _)
    · exact .error _
  · exact .error _

theorem AlikeResults.bind {α β γ δ : Type} {R : α → β → Prop} {T : γ → δ → Prop}
    {u : Except PatternError α} {v : Except PatternError β} (h : AlikeResults R u v)
    {f : α → Except PatternError γ} {g : β → Except PatternError δ}
    (next : ∀ a b, R a b → AlikeResults T (f a) (g b)) : AlikeResults T (u >>= f) (v >>= g) := by
  cases h with
  | ok h => exact next _ _ h
  | error e => exact .error e

theorem AlikeResults.map {α β γ δ : Type} {R : α → β → Prop} {T : γ → δ → Prop}
    {u : Except PatternError α} {v : Except PatternError β} (h : AlikeResults R u v)
    {f : α → γ} {g : β → δ} (next : ∀ a b, R a b → T (f a) (g b)) :
    AlikeResults T (u.map f) (v.map g) := by
  cases h with
  | ok h => exact .ok (next _ _ h)
  | error e => exact .error e

theorem alike_afterItem (h : Alike x y) (first : Primitive) (c : Char) :
    AlikeResults AlikeParts (x.afterItem b first c) (y.afterItem b' first c) := by
  unfold afterItem
  split
  · exact .ok (.more (h.of_mode _))
  · refine (alike_add h.inner first).bind fun _ _ same => .ok (alike_item b b' ?_ c)
    exact ⟨h.mode, same, h.outer⟩

theorem alike_afterDash (h : Alike x y) (first : Primitive) (c : Char) :
    AlikeResults AlikeParts (x.afterDash b first c) (y.afterDash b' first c) := by
  unfold afterDash
  split
  · refine (alike_add h.inner first).bind fun _ _ same => .ok (alike_close b b' ?_)
    exact ⟨h.mode, alike_addRange same _ _ _ _, h.outer⟩
  · refine (alike_add h.inner first).bind fun _ _ same => .ok (.more (Alike.operate b b' ?_ _))
    exact ⟨h.mode, same, h.outer⟩
  · exact .ok (.more (h.of_mode _))
  · exact (alike_addBetween h.inner first _).bind fun _ _ same => .ok (.more (h.of_inner same _))

theorem alike_lead (h : Alike x y) (bare : Bool) (c : Char) :
    AlikeParts (x.lead b bare c) (y.lead b' bare c) := by
  unfold lead
  split
  · exact .more (h.of_inner (alike_addRange h.inner _ _ _ _) _)
  · split
    · exact .more (h.of_inner (alike_addRange h.inner _ _ _ _) _)
    · exact alike_item b b' h c

theorem alike_opening (h : Alike x y) (c : Char) :
    AlikeParts (x.opening b c) (y.opening b' c) := by
  unfold opening
  split
  · exact .more ⟨rfl, h.inner, h.outer⟩
  · exact alike_lead b b' h true c

theorem isSome_namedSet? (text : List Char) :
    (namedSet? b text).isSome = (namedSet? b' text).isSome := by
  unfold namedSet?
  split <;> simp

theorem alike_name (h : Alike x y) (text : List Char) (c : Char) :
    AlikeResults AlikeParts (x.name b text c) (y.name b' text c) := by
  unfold name
  dsimp only
  have named : (if (decide (text.length > 1) && text.getLastD ' ' = ':' && c = ']') = true
      then namedSet? b text.dropLast else none).isSome =
      (if (decide (text.length > 1) && text.getLastD ' ' = ':' && c = ']') = true
      then namedSet? b' text.dropLast else none).isSome := by
    split
    · exact isSome_namedSet? b b' _
    · rfl
  split
  · rename_i found
    rw [found] at named
    obtain ⟨t, ht⟩ := Option.isSome_iff_exists.mp named.symm
    rw [ht]
    exact .ok (.more (h.of_inner (alike_addSet h.inner _ _ rfl) _))
  · rename_i missing
    rw [missing] at named
    rw [Option.isNone_iff_eq_none.mp (Option.isSome_eq_false_iff.mp named.symm)]
    have unnamed : Alike (x.unname text).1 (y.unname text).1 :=
      ⟨rfl, rfl, congrArg₂ List.cons h.inner h.outer⟩
    split
    · rw [if_neg Bool.false_ne_true, if_neg Bool.false_ne_true]
      exact alike_afterItem b b' unnamed _ c
    · split
      · exact .ok (.more (h.of_mode _))
      · exact alike_afterItem b b' unnamed _ c

theorem alike_escaped (h : Alike x y) (first : Option Primitive) (primitive : Primitive) :
    AlikeResults Alike (x.escaped first primitive) (y.escaped first primitive) := by
  unfold escaped
  split
  · exact .error _
  · exact .ok (h.of_mode _)
  · exact (alike_addBetween h.inner _ _).bind fun _ _ same => .ok (h.of_inner same _)

theorem alike_read (h : Alike x y) (c : Char) :
    AlikeResults AlikeParts (x.read b c) (y.read b' c) := by
  unfold read
  rw [← h.mode]
  split
  · exact .ok (alike_opening b b' h c)
  · exact .ok (alike_lead b b' h _ c)
  · exact .ok (alike_item b b' h c)
  · exact alike_afterItem b b' h _ c
  · exact alike_afterDash b b' h _ c
  · split
    · exact .ok (.more (h.operate b b' _))
    · exact alike_afterItem b b' h _ c
  · split
    · exact .ok (.more (h.operate b b' _))
    · exact alike_afterItem b b' h _ c
  · split
    · exact .ok (.more (h.of_mode _))
    · exact .ok (alike_opening b b' h.nest c)
  · exact alike_name b b' h _ c
  · split
    · exact .error _
    · exact .ok (.more (h.of_mode _))
    · exact (alike_escaped h _ _).map fun _ _ => .more

end ClassReader

open Likeness

/-- The same shape under flags that only differ in case and lines. -/
def sameShape : Likeness where
  letters _ _ := True
  lines _ _ := True
  pattern _ p q := p.shape = q.shape
  classes := ClassReader.Alike
  mayFail := False
  letters_refl _ := trivial
  lines_refl _ := trivial
  mono _ h := h
  size h := .inl (by rw [← size_shape, h, size_shape])
  empty _ := rfl
  one _ _ := rfl
  look _ _ := rfl
  mark _ := ⟨rfl, rfl⟩
  seq hp hq := congrArg₂ Pattern.seq hp hq
  alt hp hq := congrArg₂ Pattern.alt hp hq
  opt greedy h := congrArg (Pattern.opt greedy) h
  plus greedy h := congrArg (Pattern.plus greedy) h
  literal _ _ _ := rfl
  dot _ _ := rfl
  caret _ _ := rfl
  dollar _ _ := rfl
  bracket := ⟨rfl, rfl, rfl⟩
  skipsBlanks h := by rw [ClassReader.skipsBlanks, ClassReader.skipsBlanks, h.mode]
  classMore {b b' x y c x'} _ h hx := by
    have result := ClassReader.alike_read b b' h c
    rw [hx] at result
    generalize y.read b' c = second at result
    cases result with
    | ok parts =>
      cases parts with
      | more h => exact ⟨_, rfl, h⟩
  classSet {b b' x y c s} names _ h hx := by
    have result := ClassReader.alike_read b b' h c
    rw [hx] at result
    generalize y.read b' c = second at result
    cases result with
    | ok parts =>
      cases parts with
      | complete depth => exact ⟨_, rfl, rfl, depth⟩

def Likeness.alone (L : Likeness) : L.Surroundings where
  outside := {}
  outer := []
  names := Eq
  keep h _ _ := congrArg _ h
  taken h first second := absurd (h ▸ second) first

theorem Likeness.alone_start (L : Likeness) {f g : PatternFlags} (h : L.Flags f g) :
    L.alone.Readers { flags := f } { flags := g } :=
  ⟨h, .outermost ⟨rfl, by simp, .nil, .nil⟩ rfl, rfl, rfl, .plain⟩

theorem read?_eq_ok_iff {flags : PatternFlags} {text : List Char} {p : Pattern} :
    read? flags text = .ok p ↔
      ∃ r, text.foldlM Reader.step { flags } = .ok r ∧ r.finish = .ok p := by
  rw [read?, bind_eq_ok_iff]

/-- A pattern is one under all flags with the same notation. -/
theorem read?_of_flags {f g : PatternFlags} (swapGreed : f.swapGreed = g.swapGreed)
    (extended : f.extended = g.extended) {text : List Char} {p : Pattern}
    (h : read? f text = .ok p) : ∃ q, read? g text = .ok q := by
  obtain ⟨r, hr, hp⟩ := read?_eq_ok_iff.mp h
  have start := sameShape.alone_start ⟨trivial, trivial, trivial, swapGreed, extended⟩
  rcases start.run text r hr with ⟨s, hs, like⟩ | ⟨never, _⟩
  · rcases like.finish rfl hp with ⟨q, hq, -⟩ | ⟨never, _⟩
    · exact ⟨q, read?_eq_ok_iff.mpr ⟨s, hs, hq⟩⟩
    · exact never.elim
  · exact never.elim

end MediaRange.Pattern
