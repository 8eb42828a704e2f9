import MediaRange.Proofs.Pattern.Flags

/-!
# A text put into another one

A text that is a pattern by itself is read in the same way as a group of another text. So the
pattern of the whole is that of a template with a hole for the group, and `fill_hole` fills it. The
template is read with the hole put there by hand, since no text stands for a hole.
-/

namespace MediaRange.Pattern

/-- What is left of a loop after a round: no reader builds it. -/
def hole : Pattern := again true empty

/-- The pattern with another one in the place of its holes. -/
def fill (filler : Pattern) : Pattern → Pattern
  | seq p q => seq (fill filler p) (fill filler q)
  | alt p q => alt (fill filler p) (fill filler q)
  | opt greedy p => opt greedy (fill filler p)
  | plus greedy p => plus greedy (fill filler p)
  | again _ _ => filler
  | p => p

/-- A map of patterns that keeps every form that a reader builds. -/
structure Structural (f : Pattern → Pattern) : Prop where
  empty : f .empty = .empty
  one : ∀ s, f (.one s) = .one s
  look : ∀ l, f (.look l) = .look l
  mark : ∀ m, f (.mark m) = .mark m
  seq : ∀ p q, f (.seq p q) = .seq (f p) (f q)
  alt : ∀ p q, f (.alt p q) = .alt (f p) (f q)
  opt : ∀ greedy p, f (.opt greedy p) = .opt greedy (f p)
  plus : ∀ greedy p, f (.plus greedy p) = .plus greedy (f p)

theorem structural_id : Structural id := by
  constructor <;> intros <;> rfl

theorem structural_fill (filler : Pattern) : Structural (fill filler) := by
  constructor <;> intros <;> rfl

/-- The second reader builds the patterns of the first one, but for a map of them. -/
def along {f : Pattern → Pattern} (h : Structural f) : Likeness where
  letters := Eq
  lines := Eq
  pattern _ p q := q = f p
  classes := Eq
  mayFail := True
  letters_refl _ := rfl
  lines_refl _ := rfl
  mono _ h := h
  size _ := .inr trivial
  empty _ := h.empty.symm
  one _ s := (h.one s).symm
  look _ l := (h.look l).symm
  mark _ := ⟨(h.mark _).symm, (h.mark _).symm⟩
  seq hp hq := by rw [hp, hq, h.seq]
  alt hp hq := by rw [hp, hq, h.alt]
  opt greedy hp := by rw [hp, h.opt]
  plus greedy hp := by rw [hp, h.plus]
  literal _ _ hb := by rw [hb, h.one]
  dot _ hb := by rw [hb, h.one]
  caret _ hb := by rw [hb, h.look]
  dollar _ hb := by rw [hb, h.look]
  bracket := bracket_eq
  skipsBlanks h := congrArg _ h
  classMore hb hx hx' := exists_read_eq hb hx hx'
  classSet _ hb hx hs := ⟨_, hb ▸ hx ▸ hs, (h.one _).symm, rfl⟩

theorem flags_eq {f : Pattern → Pattern} {h : Structural f} {g g' : PatternFlags}
    (hf : (along h).Flags g g') : g' = g := by
  obtain ⟨ignoreCase, multiLine, dotAll, swapGreed, extended⟩ := g
  obtain ⟨ignoreCase', multiLine', dotAll', swapGreed', extended'⟩ := g'
  obtain ⟨rfl, rfl, rfl, rfl, rfl⟩ := hf
  rfl

/-! ### The end of a group -/

namespace Mode

/-- Whether the unit that is being read may end here. -/
def mayEnd : Mode → Bool
  | plain | quantified _ _ _ | boundary => true
  | _ => false

end Mode

namespace Reader

variable {r r' : Reader}

theorem mayEnd_of_settle (h : r.settle = .ok r') : r.mode.mayEnd = true := by
  rw [settle.eq_def] at h
  cases hmode : r.mode with
  | plain => rfl
  | quantified => rfl
  | boundary => rfl
  | _ => rw [hmode] at h; cases h

/-- A closing parenthesis completes the last unit and then the group. -/
theorem step_closing (mode : r.mode.mayEnd = true) (comment : r.comment = false) :
    r.step ')' = r.settle >>= closeGroup := by
  have close (r : Reader) : r.start ')' = r.closeGroup := by
    simp [start, plain, show Unicode.isBlank ')' = false from by decide]
  have step : r.step ')' = r.character ')' := by
    simp [Reader.step, comment, show Unicode.isBlank ')' = false from by decide]
  rw [step]
  unfold character settle
  cases hmode : r.mode with
  | plain => exact close r
  | quantified p rounds counted =>
    dsimp only
    rw [if_neg (by decide)]
    cases r.complete p rounds true with
    | error e => rfl
    | ok r' => exact close r'
  | boundary => exact close _
  | _ => rw [hmode] at mode; cases mode

/-- Nothing has been read in the innermost group, which has no name. -/
def atStart (flags : PatternFlags) (r : Reader) : Bool :=
  decide (r.flags = flags) && !r.comment && r.inner.name.isNone && r.inner.alternatives.isEmpty &&
    r.inner.items.isEmpty && (match r.mode with | .plain => true | _ => false)

/-- The reader after the innermost group, of which `p` is read as a whole. -/
def closeWith (flags : PatternFlags) (p : Part) (r : Reader) : Except PatternError Reader :=
  if r.atStart flags then (r.push (.part p)).closeGroup else .error .unclosedGroup

theorem comment_eq {flags : PatternFlags} (h : r.atStart flags = true) : r.comment = false := by
  simp only [atStart, Bool.and_eq_true, Bool.not_eq_true'] at h
  exact h.1.1.1.1.2

theorem part_push {flags : PatternFlags} (h : r.atStart flags = true) (p : Part) :
    (r.push (.part p)).inner.part = p := by
  simp only [atStart, Bool.and_eq_true, Option.isNone_iff_eq_none, List.isEmpty_iff] at h
  obtain ⟨⟨⟨⟨-, name⟩, alternatives⟩, items⟩, -⟩ := h
  rw [push, OpenGroup.push, OpenGroup.part, name, alternatives, OpenGroup.current, items]
  simp [listDepth, Item.depth, Item.pattern?, sequence, choice]

theorem closeWith_eq_ok_iff {flags : PatternFlags} {p : Part} :
    r.closeWith flags p = .ok r' ↔
      r.atStart flags = true ∧ (r.push (.part p)).closeGroup = .ok r' := by
  rw [closeWith]
  split <;> simp [*]

theorem run_comment (comment : r.comment = true) {text : List Char} (line : '\n' ∉ text) :
    text.foldlM step r = .ok r := by
  induction text with
  | nil => rfl
  | cons c text ih =>
    rw [List.mem_cons, not_or] at line
    have stays : r.step c = .ok r := by
      rw [step, if_pos comment, decide_eq_true (Ne.symm line.1), ← comment]
    rw [List.foldlM_cons, stays]
    exact ih line.2

theorem closeGroup_congr {s : Reader} (outer : r.outer = s.outer)
    (outside : r.inner.outside = s.inner.outside) (part : r.inner.part = s.inner.part)
    (names : r.names = s.names) (comment : r.comment = s.comment) :
    r.closeGroup = s.closeGroup := by
  rw [closeGroup.eq_def, closeGroup.eq_def, outer, outside, part, names, comment]

theorem run_singleton (c : Char) : [c].foldlM step r = r.step c := by simp

theorem run_append {u v : List Char} :
    (u ++ v).foldlM step r = .ok r' ↔
      ∃ s, u.foldlM step r = .ok s ∧ v.foldlM step s = .ok r' := by
  rw [List.foldlM_append, bind_eq_ok_iff]

end Reader

namespace Likeness.Surroundings.Readers

variable {L : Likeness} {S : L.Surroundings} {r s r' s' : Reader}

theorem run_ok (h : S.Readers r s) {text : List Char} (hr : text.foldlM Reader.step r = .ok r')
    (hs : text.foldlM Reader.step s = .ok s') : S.Readers r' s' := by
  rcases h.run text r' hr with ⟨s₁, hs₁, like⟩ | ⟨-, e, he⟩
  · exact Except.ok.inj (hs₁.symm.trans hs) ▸ like
  · cases hs.symm.trans he

theorem settle_ok (h : S.Readers r s) (hr : r.settle = .ok r') (hs : s.settle = .ok s') :
    S.Readers r' s' := by
  rcases h.settle r' hr with ⟨s₁, hs₁, like⟩ | ⟨-, e, he⟩
  · exact Except.ok.inj (hs₁.symm.trans hs) ▸ like
  · cases hs.symm.trans he

theorem finish_ok (h : S.Readers r s) (outermost : S.outer = []) {p q : Pattern}
    (hr : r.finish = .ok p) (hs : s.finish = .ok q) : L.pattern r.names p q := by
  rcases h.finish outermost hr with ⟨q', hq', like⟩ | ⟨-, e, he⟩
  · exact Except.ok.inj (hq'.symm.trans hs) ▸ like
  · cases hs.symm.trans he

theorem mayEnd (h : S.Readers r s) : r.mode.mayEnd = s.mode.mayEnd := by
  obtain ⟨flags, inner, outer, rNames, comment, mode⟩ := r
  obtain ⟨flags', inner', outer', sNames, comment', mode'⟩ := s
  cases h.mode <;> rfl

end Likeness.Surroundings.Readers

/-! ### A group of the text -/

section

variable {flags : PatternFlags} {body : List Char} {r : Reader} {p : Pattern}

/-- Inside of the innermost group of another reader, which has read the names already. -/
def inGroup (s : Reader) : (along structural_id).Surroundings where
  outside := s.inner.outside
  outer := s.outer
  names ns ms := ms = ns ++ s.names ∧ ∀ name ∈ ns, name ∉ s.names
  keep h _ second := by
    obtain ⟨rfl, fresh⟩ := h
    refine ⟨rfl, fun name hname => ?_⟩
    rcases List.mem_cons.mp hname with rfl | hname
    · exact fun taken => second (List.mem_append_right _ taken)
    · exact fresh name hname
  taken _ _ _ := trivial

theorem inGroup_start {s : Reader} (hs : s.atStart flags = true) :
    (inGroup s).Readers { flags } s := by
  simp only [Reader.atStart, Bool.and_eq_true, Bool.not_eq_true', decide_eq_true_eq,
    Option.isNone_iff_eq_none, List.isEmpty_iff] at hs
  obtain ⟨⟨⟨⟨⟨hflags, comment⟩, name⟩, alternatives⟩, items⟩, mode⟩ := hs
  refine ⟨hflags ▸ .refl _ _, .outermost ⟨name.symm, by simp, ?_, ?_⟩ rfl, ⟨rfl, by simp⟩,
    comment.symm, ?_⟩
  · rw [alternatives]
    exact .nil
  · rw [items]
    exact .nil
  · cases hmode : s.mode with
    | plain => exact .plain
    | _ => rw [hmode] at mode; cases mode

/-- A text that is a pattern by itself is read as a group of some depth. Names occur once in all of
the text. -/
theorem read_group (hr : body.foldlM Reader.step { flags } = .ok r) (hp : r.finish = .ok p)
    (comment : r.comment = false) {s s' : Reader} (hs : s.atStart flags = true)
    (hs' : (body ++ [')']).foldlM Reader.step s = .ok s') :
    (∃ depth, { s.push (.part ⟨p, depth⟩) with names := r.names ++ s.names }.closeGroup = .ok s') ∧
      ∀ name ∈ r.names, name ∉ s.names := by
  obtain ⟨s₁, hs₁, last⟩ := Reader.run_append.mp hs'
  obtain ⟨r', hr', houter, -, rfl⟩ := Reader.finish_eq_ok_iff.mp hp
  have mode := Reader.mayEnd_of_settle hr'
  obtain ⟨-, names', comment'⟩ := Reader.settle_frame hr'
  have like := (inGroup_start hs).run_ok hr hs₁
  rw [Reader.run_singleton, Reader.step_closing (like.mayEnd ▸ mode) (like.comment ▸ comment)] at last
  cases hs₂ : s₁.settle with
  | error e => simp [hs₂, bind, Except.bind] at last
  | ok s₂ =>
    have settled := like.settle_ok hr' hs₂
    have nested := houter ▸ settled.nested
    obtain ⟨names, fresh⟩ := names' ▸ settled.names
    have closed : s₂.closeGroup = .ok s' := by rwa [hs₂] at last
    -- Readers that are alike need not agree on depths, so the depth is the one that has been counted.
    have same : s₂.inner.part.pattern = r'.inner.part.pattern := settled.nested.group.part.pattern
    refine ⟨⟨s₂.inner.part.depth, ?_⟩, fresh⟩
    rw [← closed]
    refine Reader.closeGroup_congr nested.outer_eq.symm nested.outside_eq.symm ?_ names.symm ?_
    · rw [← same]
      exact Reader.part_push hs _
    · have start : s.comment = false := Reader.comment_eq hs
      rw [← settled.comment, comment', comment]
      exact start

/-! ### The template -/

/-- The first reader has a hole where the second one has the filler; `known` are names that the
second one has read. -/
def filling (filler : Pattern) (known : List String) :
    (along (structural_fill filler)).Surroundings where
  outside := {}
  outer := []
  names _ ms := ∀ name ∈ known, name ∈ ms
  keep h _ _ := fun name hname => List.mem_cons_of_mem _ (h name hname)
  taken _ _ _ := trivial

variable {known : List String} {t t' t'' s s' : Reader}

theorem filling_start (filler : Pattern) (flags : PatternFlags) :
    (filling filler []).Readers { flags } { flags } :=
  ⟨.refl _ _, .outermost ⟨rfl, by simp, .nil, .nil⟩ rfl, by simp [filling], rfl, .plain⟩

theorem filling_nested {filler : Pattern} {names known' : List String} {g h : OpenGroup}
    {gs hs : List OpenGroup} (hn : (filling filler known).Nested names g gs h hs) :
    (filling filler known').Nested names g gs h hs := by
  induction hn with
  | outermost group outside => exact .outermost group outside
  | inside group outside _ ih => exact .inside group outside ih

theorem filling_atStart {filler : Pattern} (h : (filling filler known).Readers t s)
    (ht : t.atStart flags = true) : s.atStart flags = true := by
  obtain ⟨tFlags, inner, outer, names, comment, mode⟩ := t
  obtain ⟨sFlags, inner', outer', names', comment', mode'⟩ := s
  simp only [Reader.atStart, Bool.and_eq_true, Bool.not_eq_true', decide_eq_true_eq,
    Option.isNone_iff_eq_none, List.isEmpty_iff] at ht ⊢
  obtain ⟨⟨⟨⟨⟨hflags, hcomment⟩, name⟩, alternatives⟩, items⟩, hmode⟩ := ht
  have group := h.nested.group
  refine ⟨⟨⟨⟨⟨(flags_eq h.flags).trans hflags, h.comment.symm.trans hcomment⟩,
    group.name.symm.trans name⟩, ?_⟩, ?_⟩, ?_⟩
  · exact List.forall₂_nil_left_iff.mp (alternatives ▸ group.alternatives)
  · exact List.forall₂_nil_left_iff.mp (items ▸ group.items)
  · cases h.mode with
    | plain => rfl
    | _ => cases hmode

/-- Where the template has a hole, the text is read as its filler. -/
theorem fill_hole (hr : body.foldlM Reader.step { flags } = .ok r) (hp : r.finish = .ok p)
    (comment : r.comment = false) (h : (filling p known).Readers t s) {before after : List Char}
    (ht : before.foldlM Reader.step t = .ok t') (ht' : t'.closeWith flags ⟨hole, 0⟩ = .ok t'')
    (hs : (before ++ (body ++ ')' :: after)).foldlM Reader.step s = .ok s') :
    ∃ s'', after.foldlM Reader.step s'' = .ok s' ∧ (filling p r.names).Readers t'' s'' ∧
      ∀ name ∈ r.names, name ∉ known := by
  obtain ⟨s₁, hs₁, rest⟩ := Reader.run_append.mp hs
  rw [List.append_cons] at rest
  obtain ⟨s₂, hs₂, rest⟩ := Reader.run_append.mp rest
  have before := h.run_ok ht hs₁
  obtain ⟨atStart, closed⟩ := Reader.closeWith_eq_ok_iff.mp ht'
  obtain ⟨⟨depth, closed'⟩, fresh⟩ :=
    read_group hr hp comment (filling_atStart before atStart) hs₂
  -- The names of the body are known from here on, so that a second copy of it meets them.
  have pushed : (filling p r.names).Readers (t'.push (.part ⟨hole, 0⟩))
      { s₁.push (.part ⟨p, depth⟩) with names := r.names ++ s₁.names } := by
    have filled : (along (structural_fill p)).Parts t'.names ⟨hole, 0⟩ ⟨p, depth⟩ :=
      ⟨rfl, .inr trivial⟩
    have pushed := before.push (.part filled)
    exact ⟨pushed.flags, filling_nested pushed.nested,
      fun _ hname => List.mem_append_left _ hname, pushed.comment, pushed.mode⟩
  rcases pushed.closeGroup t'' closed with ⟨s₂', hs₂', like⟩ | ⟨-, e, he⟩
  · obtain rfl := Except.ok.inj (hs₂'.symm.trans closed')
    exact ⟨_, rest, like, fun name hname hknown => fresh name hname (before.names name hknown)⟩
  · cases he.symm.trans closed'

/-- A text that ends in a comment takes the rest of the line into it. -/
theorem comment_eq_false (hr : body.foldlM Reader.step { flags } = .ok r) (hp : r.finish = .ok p)
    (h : (filling p known).Readers t s) {before after : List Char}
    (ht : before.foldlM Reader.step t = .ok t') (ht' : t'.closeWith flags ⟨hole, 0⟩ = .ok t'')
    (hs : (before ++ (body ++ ')' :: after)).foldlM Reader.step s = .ok s') (line : '\n' ∉ after)
    {q : Pattern} (hq : s'.finish = .ok q) : r.comment = false := by
  obtain ⟨s₁, hs₁, rest⟩ := Reader.run_append.mp hs
  obtain ⟨s₂, hs₂, rest⟩ := Reader.run_append.mp rest
  have before := h.run_ok ht hs₁
  obtain ⟨atStart, closed⟩ := Reader.closeWith_eq_ok_iff.mp ht'
  have like := (inGroup_start (filling_atStart before atStart)).run_ok hr hs₂
  obtain ⟨r', hr', houter, -⟩ := Reader.finish_eq_ok_iff.mp hp
  obtain ⟨s'', hs'', houter', -⟩ := Reader.finish_eq_ok_iff.mp hq
  cases comment : r.comment with
  | false => rfl
  | true =>
    -- Then the group that the body stands in stays open.
    obtain rfl := Except.ok.inj ((Reader.run_comment (like.comment ▸ comment)
      (by simp [line])).symm.trans rest)
    have outer : s₁.outer = [] := by
      rw [(Reader.settle_frame hr').1] at houter
      rw [(Reader.settle_frame hs'').1] at houter'
      exact (houter ▸ like.nested).outer_eq.symm.trans houter'
    have outermost : t'.outer = [] := (outer ▸ before.nested).eq_nil
    rw [Reader.closeGroup.eq_def, show (t'.push (.part ⟨hole, 0⟩)).outer = t'.outer from rfl,
      outermost] at closed
    cases closed

end

end MediaRange.Pattern
