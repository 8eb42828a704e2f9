import Mathlib.Data.List.Forall2
import MediaRange.Pattern.Reader
import MediaRange.Proofs.Results

/-!
# Readers side by side

The same characters may be read under other flags or inside of another text. A `Likeness` says how
the patterns that come of it are related. It has a law for each form that a reader can build, and
`Reader.Like.run` shows that two readers that are alike stay so.
-/

namespace MediaRange.Pattern

/-- A way for two readers to be alike. Patterns are related as soon as the names of their marks have
been read. -/
structure Likeness where
  letters : Bool → Bool → Prop
  lines : Bool → Bool → Prop
  pattern : List String → Pattern → Pattern → Prop
  classes : ClassReader → ClassReader → Prop
  /-- The second reader may fail where the first one goes on. -/
  mayFail : Prop
  letters_refl : ∀ b, letters b b
  lines_refl : ∀ b, lines b b
  mono : ∀ {names p q} name, pattern names p q → pattern (name :: names) p q
  size : ∀ {names p q}, pattern names p q → p.size = q.size ∨ mayFail
  empty : ∀ names, pattern names .empty .empty
  one : ∀ names s, pattern names (.one s) (.one s)
  look : ∀ names l, pattern names (.look l) (.look l)
  mark : ∀ {names name}, name ∈ names → pattern names (.mark (.opening name)) (.mark (.opening name)) ∧
    pattern names (.mark (.closing name)) (.mark (.closing name))
  seq : ∀ {names p q p' q'}, pattern names p p' → pattern names q q' →
    pattern names (.seq p q) (.seq p' q')
  alt : ∀ {names p q p' q'}, pattern names p p' → pattern names q q' →
    pattern names (.alt p q) (.alt p' q')
  opt : ∀ {names p p'} greedy, pattern names p p' → pattern names (.opt greedy p) (.opt greedy p')
  plus : ∀ {names p p'} greedy, pattern names p p' →
    pattern names (.plus greedy p) (.plus greedy p')
  literal : ∀ {b b'} names c, letters b b' →
    pattern names (.one (literalSet b c)) (.one (literalSet b' c))
  dot : ∀ {b b'} names, lines b b' → pattern names (.one (if b then .all else .notNewline))
    (.one (if b' then .all else .notNewline))
  caret : ∀ {b b'} names, lines b b' → pattern names (.look (if b then .lineStart else .textStart))
    (.look (if b' then .lineStart else .textStart))
  dollar : ∀ {b b'} names, lines b b' → pattern names (.look (if b then .lineEnd else .textEnd))
    (.look (if b' then .lineEnd else .textEnd))
  bracket : classes {} {}
  skipsBlanks : ∀ {x y}, classes x y → x.skipsBlanks = y.skipsBlanks
  classMore : ∀ {b b' x y c x'}, letters b b' → classes x y → x.read b c = .ok (.inl x') →
    ∃ y', y.read b' c = .ok (.inl y') ∧ classes x' y'
  classSet : ∀ {b b' x y c s} names, letters b b' → classes x y → x.read b c = .ok (.inr s) →
    ∃ t, y.read b' c = .ok (.inr t) ∧ pattern names (.one s.set) (.one t.set) ∧ s.depth = t.depth

/-! ### Equal class readers -/

theorem bracket_eq : ({} : ClassReader) = {} := rfl

theorem exists_read_eq {b b' : Bool} {x y x' : ClassReader} {c : Char} (hb : b = b') (hx : x = y)
    (h : x.read b c = .ok (.inl x')) : ∃ y', y.read b' c = .ok (.inl y') ∧ x' = y' :=
  ⟨x', hb ▸ hx ▸ h, rfl⟩

namespace Likeness

variable (L : Likeness)

structure Flags (f g : PatternFlags) : Prop where
  ignoreCase : L.letters f.ignoreCase g.ignoreCase
  multiLine : L.lines f.multiLine g.multiLine
  dotAll : L.lines f.dotAll g.dotAll
  swapGreed : f.swapGreed = g.swapGreed
  extended : f.extended = g.extended

theorem Flags.refl (f : PatternFlags) : L.Flags f f :=
  ⟨L.letters_refl _, L.lines_refl _, L.lines_refl _, rfl, rfl⟩

variable {L} {names : List String}

theorem primitive {f g : PatternFlags} (h : L.Flags f g) (primitive : Primitive) :
    L.pattern names (primitive.pattern f) (primitive.pattern g) := by
  cases primitive with
  | literal c => exact L.literal names c h.ignoreCase
  | set s => exact L.one names s
  | look l => exact L.look names l

/-! ### Lists and repetitions -/

theorem sequence {ps qs : List Pattern} (h : List.Forall₂ (L.pattern names) ps qs) :
    L.pattern names (Pattern.sequence ps) (Pattern.sequence qs) := by
  induction h with
  | nil => exact L.empty names
  | @cons p q ps qs hp hps ih =>
    cases hps with
    | nil => exact hp
    | cons => exact L.seq hp ih

theorem choice {ps qs : List Pattern} (h : List.Forall₂ (L.pattern names) ps qs) :
    L.pattern names (Pattern.choice ps) (Pattern.choice qs) := by
  induction h with
  | nil => exact L.empty names
  | @cons p q ps qs hp hps ih =>
    cases hps with
    | nil => exact hp
    | cons => exact L.alt hp ih

theorem group {name : String} (hname : name ∈ names) {p q : Pattern} (h : L.pattern names p q) :
    L.pattern names (Pattern.group name p) (Pattern.group name q) :=
  L.seq (L.mark hname).1 (L.seq h (L.mark hname).2)

variable {p q : Pattern}

theorem times (h : L.pattern names p q) (n : Nat) :
    L.pattern names (p.times n) (q.times n) := by
  induction n with
  | zero => exact L.empty names
  | succ n ih =>
    cases n with
    | zero => exact h
    | succ n => exact L.seq h ih

theorem upTo (greedy : Bool) (h : L.pattern names p q) (n : Nat) :
    L.pattern names (p.upTo greedy n) (q.upTo greedy n) := by
  induction n with
  | zero => exact L.empty names
  | succ n ih =>
    cases n with
    | zero => exact L.opt greedy h
    | succ n => exact L.opt greedy (L.seq h ih)

theorem atLeast (greedy : Bool) (h : L.pattern names p q) (n : Nat) :
    L.pattern names (p.atLeast greedy n) (q.atLeast greedy n) := by
  induction n with
  | zero => exact L.opt greedy (L.plus greedy h)
  | succ n ih =>
    cases n with
    | zero => exact L.plus greedy h
    | succ n => exact L.seq h ih

theorem rounds (rounds : Rounds) (greedy : Bool) (h : L.pattern names p q) :
    L.pattern names (rounds.pattern greedy p) (rounds.pattern greedy q) := by
  obtain ⟨low, high⟩ := rounds
  cases high with
  | none => exact atLeast greedy h low
  | some high =>
    simp only [Rounds.pattern, Pattern.between]
    split
    · exact times h high
    · split
      · exact upTo greedy h high
      · split
        · exact times h low
        · exact L.seq (times h low) (upTo greedy h _)

/-! ### Groups -/

variable (L)

/-- Depths that are alike: whether they are within a limit is the same, unless the second reader may
fail. -/
def Depths (d e : Nat) : Prop := d = e ∨ L.mayFail

structure Parts (names : List String) (p q : Part) : Prop where
  pattern : L.pattern names p.pattern q.pattern
  depth : L.Depths p.depth q.depth

inductive Items (names : List String) : Item → Item → Prop where
  | part {p q : Part} (h : L.Parts names p q) : Items names (.part p) (.part q)
  | flags : Items names .flags .flags

structure Groups (names : List String) (g h : OpenGroup) : Prop where
  name : g.name = h.name
  named : ∀ name ∈ g.name, name ∈ names
  alternatives : List.Forall₂ (L.Parts names) g.alternatives h.alternatives
  items : List.Forall₂ (L.Items names) g.items h.items

variable {L} {g h : OpenGroup}

theorem Parts.mono (name : String) {p q : Part} (h : L.Parts names p q) :
    L.Parts (name :: names) p q := ⟨L.mono name h.pattern, h.depth⟩

theorem Depths.refl (d : Nat) : L.Depths d d := .inl rfl

theorem Depths.map {d e : Nat} (h : L.Depths d e) (f : Nat → Nat) : L.Depths (f d) (f e) :=
  h.imp_left (congrArg f)

theorem Items.mono (name : String) {i j : Item} (h : L.Items names i j) :
    L.Items (name :: names) i j := by
  cases h with
  | part h => exact .part (h.mono name)
  | flags => exact .flags

theorem Items.depth {i j : Item} (h : L.Items names i j) : L.Depths i.depth j.depth := by
  cases h with
  | part h => exact h.depth
  | flags => exact .refl 0

/-- Lists of units that are alike one by one nest alike. -/
theorem Depths.list {β : Type} {R : β → β → Prop} (depth : β → Nat)
    (units : ∀ a b, R a b → L.Depths (depth a) (depth b)) {as bs : List β}
    (h : List.Forall₂ R as bs) : L.Depths (listDepth (as.map depth)) (listDepth (bs.map depth)) := by
  suffices same : as.map depth = bs.map depth ∨ L.mayFail from same.imp_left (congrArg listDepth)
  induction h with
  | nil => exact .inl rfl
  | cons first _ ih =>
    rcases units _ _ first with same | mayFail
    · exact ih.imp_left (congrArg₂ List.cons same)
    · exact .inr mayFail

namespace Groups

theorem mono (name : String) (hg : L.Groups names g h) : L.Groups (name :: names) g h where
  name := hg.name
  named n hn := List.mem_cons_of_mem _ (hg.named n hn)
  alternatives := hg.alternatives.imp fun _ _ => Parts.mono name
  items := hg.items.imp fun _ _ => Items.mono name

theorem push (hg : L.Groups names g h) {i j : Item} (hi : L.Items names i j) :
    L.Groups names (g.push i) (h.push j) :=
  ⟨hg.name, hg.named, hg.alternatives, .cons hi hg.items⟩

theorem parts {is js : List Item} (hi : List.Forall₂ (L.Items names) is js) :
    List.Forall₂ (L.pattern names) (is.filterMap Item.pattern?) (js.filterMap Item.pattern?) := by
  induction hi with
  | nil => exact .nil
  | cons hi _ ih =>
    cases hi with
    | part h => exact .cons h.pattern ih
    | flags => exact ih

theorem current (hg : L.Groups names g h) : L.Parts names g.current h.current :=
  ⟨sequence (List.rel_reverse (parts hg.items)), .list Item.depth (fun _ _ => Items.depth) hg.items⟩

theorem alternate (hg : L.Groups names g h) : L.Groups names g.alternate h.alternate :=
  ⟨hg.name, hg.named, .cons hg.current hg.alternatives, .nil⟩

theorem part (hg : L.Groups names g h) : L.Parts names g.part h.part := by
  have alternatives : List.Forall₂ (L.Parts names) (g.current :: g.alternatives)
      (h.current :: h.alternatives) := .cons hg.current hg.alternatives
  refine ⟨?pattern, .list Part.depth (fun _ _ => Parts.depth) alternatives⟩
  have patterns : List.Forall₂ (L.pattern names) ((g.current :: g.alternatives).map Part.pattern)
      ((h.current :: h.alternatives).map Part.pattern) :=
    List.forall₂_map_left_iff.mpr (List.forall₂_map_right_iff.mpr
      (alternatives.imp fun _ _ => Parts.pattern))
  have body := choice (List.rel_reverse patterns)
  rw [OpenGroup.part, OpenGroup.part, ← hg.name]
  cases hname : g.name with
  | none => exact body
  | some name => exact group (hg.named name hname) body

end Groups

end Likeness

end MediaRange.Pattern
