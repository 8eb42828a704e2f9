import MediaRange.Proofs.Pattern.Likeness

/-!
# Reading in lockstep

`Readers S r s` relates two readers of the same characters, where the second one may stand inside of
the groups of another text. `Follows` is what a step has to show: wherever the first reader gets
to, the second one gets too. `Readers.run` and `Readers.finish` state it of whole texts.
-/

namespace MediaRange.Pattern

/-- What the second reader stands in: the flags outside of its innermost group and the groups around
that, and how the names read so far are related. -/
structure Likeness.Surroundings (L : Likeness) where
  outside : PatternFlags
  outer : List OpenGroup
  names : List String → List String → Prop
  keep : ∀ {ns ms name}, names ns ms → name ∉ ns → name ∉ ms → names (name :: ns) (name :: ms)
  taken : ∀ {ns ms name}, names ns ms → name ∉ ns → name ∈ ms → L.mayFail

namespace Likeness.Surroundings

variable {L : Likeness} (S : L.Surroundings)

/-- The open groups are alike, up to the one that the first reader started in. -/
inductive Nested (names : List String) :
    OpenGroup → List OpenGroup → OpenGroup → List OpenGroup → Prop where
  | outermost {g h : OpenGroup} (group : L.Groups names g h) (outside : h.outside = S.outside) :
      Nested names g [] h S.outer
  | inside {g h next next' : OpenGroup} {gs hs : List OpenGroup} (group : L.Groups names g h)
      (outside : L.Flags g.outside h.outside) (rest : Nested names next gs next' hs) :
      Nested names g (next :: gs) h (next' :: hs)

structure Settings (s t : FlagSetting) : Prop where
  flags : L.Flags s.flags t.flags
  seen : s.seen = t.seen
  negated : s.negated = t.negated
  dangling : s.dangling = t.dangling

variable (L) in
inductive Modes (names : List String) : Mode → Mode → Prop where
  | plain : Modes names .plain .plain
  | quantified {p q : Part} (h : L.Parts names p q) (rounds : Rounds) (counted : Bool) :
      Modes names (.quantified p rounds counted) (.quantified q rounds counted)
  | counts {p q : Part} (h : L.Parts names p q) (counts : Counts) :
      Modes names (.counts p counts) (.counts q counts)
  | escape (escape : Escape) : Modes names (.escape escape) (.escape escape)
  | boundary : Modes names .boundary .boundary
  | boundaryBrace : Modes names .boundaryBrace .boundaryBrace
  | boundaryName (name : List Char) : Modes names (.boundaryName name) (.boundaryName name)
  | group : Modes names .group .group
  | groupMark : Modes names .groupMark .groupMark
  | groupAngle : Modes names .groupAngle .groupAngle
  | groupLetter : Modes names .groupLetter .groupLetter
  | groupName (name : List Char) : Modes names (.groupName name) (.groupName name)
  | groupFlags {s t : FlagSetting} (h : Settings (L := L) s t) :
      Modes names (.groupFlags s) (.groupFlags t)
  | bracket {x y : ClassReader} (h : L.classes x y) : Modes names (.bracket x) (.bracket y)

structure Readers (r s : Reader) : Prop where
  flags : L.Flags r.flags s.flags
  nested : S.Nested r.names r.inner r.outer s.inner s.outer
  names : S.names r.names s.names
  comment : r.comment = s.comment
  mode : Modes L r.names r.mode s.mode

/-- Where the first result is good, the second one is and is alike, unless it may fail. -/
def Follows (x y : Except PatternError Reader) : Prop :=
  ∀ r, x = .ok r → (∃ s, y = .ok s ∧ S.Readers r s) ∨ (L.mayFail ∧ ∃ e, y = .error e)

variable {S} {names : List String} {r s : Reader}

namespace Follows

theorem ok (h : S.Readers r s) : S.Follows (.ok r) (.ok s) := by
  rintro _ ⟨⟩
  exact .inl ⟨s, rfl, h⟩

theorem error (e : PatternError) (y : Except PatternError Reader) : S.Follows (.error e) y := by
  rintro _ ⟨⟩

theorem bind {x y : Except PatternError Reader} (h : S.Follows x y)
    {f g : Reader → Except PatternError Reader}
    (next : ∀ {r s}, S.Readers r s → S.Follows (f r) (g s)) : S.Follows (x >>= f) (y >>= g) := by
  intro r hr
  cases x with
  | error e => cases hr
  | ok r₁ =>
    rcases h r₁ rfl with ⟨s₁, rfl, like⟩ | ⟨mayFail, e, rfl⟩
    · exact next like r hr
    · exact .inr ⟨mayFail, e, rfl⟩

end Follows

namespace Nested

theorem group {g h : OpenGroup} {gs hs : List OpenGroup} (hn : S.Nested names g gs h hs) :
    L.Groups names g h := by
  cases hn with
  | outermost group => exact group
  | inside group => exact group

/-- The innermost group may change, but for the flags outside of it. -/
theorem replace {g h g' h' : OpenGroup} {gs hs : List OpenGroup} (hn : S.Nested names g gs h hs)
    (group : L.Groups names g' h') (hg : g'.outside = g.outside) (hh : h'.outside = h.outside) :
    S.Nested names g' gs h' hs := by
  cases hn with
  | outermost _ outside => exact .outermost group (hh.trans outside)
  | inside _ outside rest => exact .inside group (by rwa [hg, hh]) rest

theorem mono (name : String) {g h : OpenGroup} {gs hs : List OpenGroup}
    (hn : S.Nested names g gs h hs) : S.Nested (name :: names) g gs h hs := by
  induction hn with
  | outermost group outside => exact .outermost (group.mono name) outside
  | inside group outside _ ih => exact .inside (group.mono name) outside ih

theorem outer_eq {g h : OpenGroup} {hs : List OpenGroup} (hn : S.Nested names g [] h hs) :
    hs = S.outer := by
  generalize houter : ([] : List OpenGroup) = gs at hn
  cases hn with
  | outermost => rfl
  | inside => cases houter

theorem eq_nil {g h : OpenGroup} {gs : List OpenGroup} (hn : S.Nested names g gs h []) :
    gs = [] := by
  generalize houter : ([] : List OpenGroup) = hs at hn
  cases hn with
  | outermost => exact houter
  | inside => cases houter

theorem outside_eq {g h : OpenGroup} {hs : List OpenGroup} (hn : S.Nested names g [] h hs) :
    h.outside = S.outside := by
  generalize houter : ([] : List OpenGroup) = gs at hn
  cases hn with
  | outermost _ outside => exact outside
  | inside => cases houter

end Nested

namespace Readers

theorem setMode {m m' : Mode} (h : S.Readers r s) (mode : Modes L r.names m m') :
    S.Readers { r with mode := m } { s with mode := m' } :=
  ⟨h.flags, h.nested, h.names, h.comment, mode⟩

theorem push (h : S.Readers r s) {i j : Item} (hi : L.Items r.names i j) :
    S.Readers (r.push i) (s.push j) :=
  ⟨h.flags, h.nested.replace (h.nested.group.push hi) rfl rfl, h.names, h.comment, .plain⟩

theorem pushPrimitive (h : S.Readers r s) (primitive : Primitive) :
    S.Readers (r.pushPrimitive primitive) (s.pushPrimitive primitive) :=
  h.push (.part ⟨L.primitive h.flags primitive, .refl 0⟩)

/-! ### Groups -/

theorem openGroup (h : S.Readers r s) {name : Option String} (hname : ∀ n ∈ name, n ∈ r.names)
    {f g : PatternFlags} (hf : L.Flags f g) : S.Readers (r.openGroup name f) (s.openGroup name g) :=
  ⟨hf, .inside ⟨rfl, hname, .nil, .nil⟩ h.flags h.nested, h.names, h.comment, .plain⟩

theorem closeGroup (h : S.Readers r s) : S.Follows r.closeGroup s.closeGroup := by
  obtain ⟨flags, inner, outer, rNames, comment, mode⟩ := r
  obtain ⟨flags', inner', outer', sNames, comment', mode'⟩ := s
  cases h.nested with
  | outermost => exact .error _ _
  | inside group outside rest =>
    have part : L.Parts rNames ⟨inner.part.pattern, inner.part.depth + 1⟩
        ⟨inner'.part.pattern, inner'.part.depth + 1⟩ :=
      ⟨group.part.pattern, group.part.depth.map (· + 1)⟩
    exact .ok ⟨outside, rest.replace (rest.group.push (.part part)) rfl rfl, h.names, h.comment,
      .plain⟩

theorem nameCharacter (h : S.Readers r s) (name : List Char) (c : Char) :
    S.Follows (r.nameCharacter name c) (s.nameCharacter name c) := by
  rw [Reader.nameCharacter, Reader.nameCharacter]
  split
  · dsimp only
    split
    · exact .error _ _
    · by_cases first : String.ofList name ∈ r.names
      · rw [if_pos (List.contains_iff_mem.mpr first)]
        exact .error _ _
      · rw [if_neg (mt List.contains_iff_mem.mp first)]
        by_cases second : String.ofList name ∈ s.names
        · rw [if_pos (List.contains_iff_mem.mpr second)]
          exact fun _ _ => .inr ⟨S.taken h.names first second, _, rfl⟩
        · rw [if_neg (mt List.contains_iff_mem.mp second)]
          have more : S.Readers { r with names := String.ofList name :: r.names, mode := .plain }
              { s with names := String.ofList name :: s.names, mode := .plain } :=
            ⟨h.flags, h.nested.mono _, S.keep h.names first second, h.comment, .plain⟩
          exact .ok (more.openGroup (by simp) h.flags)
  · split
    · exact .ok (h.setMode (.groupName _))
    · exact .error _ _

theorem readFlag {t u : FlagSetting} (h : Settings (L := L) t u) (c : Char) {t' : FlagSetting}
    (ht : t.read c = .ok t') : ∃ u', u.read c = .ok u' ∧ Settings (L := L) t' u' := by
  obtain ⟨flags, seen, negated, dangling⟩ := t
  obtain ⟨flags', seen', negated', dangling'⟩ := u
  obtain ⟨hflags, rfl, rfl, rfl⟩ := h
  simp only [FlagSetting.read] at ht ⊢
  split at ht
  · cases ht
  rename_i unseen
  rw [if_neg unseen]
  split at ht
  · cases ht
    exact ⟨_, rfl, hflags, rfl, rfl, rfl⟩
  · cases ht
    exact ⟨_, rfl, { hflags with ignoreCase := L.letters_refl _ }, rfl, rfl, rfl⟩
  · cases ht
    exact ⟨_, rfl, { hflags with multiLine := L.lines_refl _ }, rfl, rfl, rfl⟩
  · cases ht
    exact ⟨_, rfl, { hflags with dotAll := L.lines_refl _ }, rfl, rfl, rfl⟩
  · cases ht
    exact ⟨_, rfl, { hflags with swapGreed := rfl }, rfl, rfl, rfl⟩
  · cases ht
    exact ⟨_, rfl, { hflags with extended := rfl }, rfl, rfl, rfl⟩
  · split at ht
    · rename_i on
      cases ht
      exact ⟨_, if_pos on, hflags, rfl, rfl, rfl⟩
    · cases ht
  · cases ht

theorem flagCharacter (h : S.Readers r s) {t u : FlagSetting} (ht : Settings (L := L) t u)
    (c : Char) : S.Follows (r.flagCharacter t c) (s.flagCharacter u c) := by
  unfold Reader.flagCharacter
  split
  · rw [← ht.dangling]
    split
    · exact .error _ _
    · exact .ok (h.openGroup (by simp) ht.flags)
  · rw [← ht.seen, ← ht.dangling]
    split
    · exact .error _ _
    · split
      · exact .error _ _
      · have pushed := h.push .flags
        exact .ok ⟨ht.flags, pushed.nested, pushed.names, pushed.comment, pushed.mode⟩
  · intro r' hr
    cases more : t.read c with
    | error e => simp [more] at hr
    | ok t' =>
      obtain ⟨u', hu, ht'⟩ := readFlag ht c more
      rw [more] at hr
      rw [hu]
      exact Follows.ok (h.setMode (.groupFlags ht')) r' hr

/-! ### Repetition -/

theorem operand (h : S.Readers r s) {p : Part} {r' : Reader} (hr : r.operand = .ok (p, r')) :
    ∃ q s', s.operand = .ok (q, s') ∧ L.Parts r'.names p q ∧ S.Readers r' s' := by
  obtain ⟨flags, inner, outer, rNames, comment, mode⟩ := r
  obtain ⟨flags', inner', outer', sNames, comment', mode'⟩ := s
  obtain ⟨outside, name, alternatives, items⟩ := inner
  obtain ⟨outside', name', alternatives', items'⟩ := inner'
  have group := h.nested.group
  cases group.items with
  | nil => cases hr
  | cons first rest =>
    cases first with
    | flags => cases hr
    | part hp =>
      cases hr
      exact ⟨_, _, rfl, hp, h.flags,
        h.nested.replace ⟨group.name, group.named, group.alternatives, rest⟩ rfl rfl, h.names,
        h.comment, h.mode⟩

theorem operand_mode (h : S.Readers r s) {f : Part → Mode}
    (hf : ∀ {names p q}, L.Parts names p q → Modes L names (f p) (f q)) :
    S.Follows (do let (p, r) ← r.operand; return { r with mode := f p })
      (do let (p, s) ← s.operand; return { s with mode := f p }) := by
  intro r' hr
  cases taken : r.operand with
  | error e => simp [taken, bind, Except.bind] at hr
  | ok x =>
    obtain ⟨q, s₁, hs, hp, like⟩ := h.operand taken
    rw [taken] at hr
    rw [hs]
    exact Follows.ok (like.setMode (hf hp)) r' hr

theorem quantify (h : S.Readers r s) (rounds : Rounds) :
    S.Follows (r.quantify rounds) (s.quantify rounds) :=
  h.operand_mode fun hp => .quantified hp rounds false

theorem complete (h : S.Readers r s) {p q : Part} (hp : L.Parts r.names p q) (rounds : Rounds)
    (greedy : Bool) : S.Follows (r.complete p rounds greedy) (s.complete q rounds greedy) := by
  have pushed : S.Readers
      (r.push (.part ⟨rounds.pattern (greedy != r.flags.swapGreed) p.pattern, p.depth + 1⟩))
      (s.push (.part ⟨rounds.pattern (greedy != s.flags.swapGreed) q.pattern, q.depth + 1⟩)) := by
    rw [h.flags.swapGreed]
    exact h.push (.part ⟨Likeness.rounds rounds _ hp.pattern, hp.depth.map (· + 1)⟩)
  rw [Reader.complete, Reader.complete]
  split
  · rename_i fits
    rcases L.size hp.pattern with same | mayFail
    · have fits' : rounds.fits q.pattern = true := by rwa [Rounds.fits, ← same]
      rw [if_pos fits']
      exact .ok pushed
    · split
      · exact .ok pushed
      · exact fun _ _ => .inr ⟨mayFail, _, rfl⟩
  · exact .error _ _

/-! ### Characters -/

theorem plain (h : S.Readers r s) (c : Char) : S.Follows (r.plain c) (s.plain c) := by
  unfold Reader.plain
  split
  · exact .ok (h.setMode .group)
  · exact h.closeGroup
  · exact .ok ⟨h.flags, h.nested.replace h.nested.group.alternate rfl rfl, h.names, h.comment,
      .plain⟩
  · exact .ok (h.setMode (.bracket L.bracket))
  · exact h.quantify _
  · exact h.quantify _
  · exact h.quantify _
  · exact h.operand_mode fun hp => .counts hp _
  · exact .ok (h.setMode (.escape _))
  · exact .ok (h.push (.part ⟨L.dot _ h.flags.dotAll, .refl 0⟩))
  · exact .ok (h.push (.part ⟨L.caret _ h.flags.multiLine, .refl 0⟩))
  · exact .ok (h.push (.part ⟨L.dollar _ h.flags.multiLine, .refl 0⟩))
  · exact .ok (h.pushPrimitive _)

theorem skipsBlanks (h : S.Readers r s) : r.skipsBlanks = s.skipsBlanks := by
  obtain ⟨flags, inner, outer, rNames, comment, mode⟩ := r
  obtain ⟨flags', inner', outer', sNames, comment', mode'⟩ := s
  rw [Reader.skipsBlanks, Reader.skipsBlanks, h.flags.extended]
  congr 1
  cases h.mode with
  | bracket classes => exact L.skipsBlanks classes
  | quantified _ _ counted => cases counted <;> rfl
  | _ => rfl

theorem start (h : S.Readers r s) (c : Char) : S.Follows (r.start c) (s.start c) := by
  unfold Reader.start
  rw [h.flags.extended]
  split
  · exact .ok (h.setMode .plain)
  · split
    · exact .ok ⟨h.flags, h.nested, h.names, rfl, .plain⟩
    · exact h.plain c

theorem character (h : S.Readers r s) (c : Char) : S.Follows (r.character c) (s.character c) := by
  obtain ⟨flags, inner, outer, rNames, comment, mode⟩ := r
  obtain ⟨flags', inner', outer', sNames, comment', mode'⟩ := s
  unfold Reader.character
  cases h.mode with
  | plain => exact h.start c
  | quantified hp rounds counted =>
    dsimp only
    split
    · exact h.complete hp rounds false
    · exact (h.complete hp rounds true).bind fun like => like.start c
  | counts hp counts =>
    dsimp only
    split
    · exact .error _ _
    · exact .ok (h.setMode (.counts hp _))
    · exact .ok (h.setMode (.quantified hp _ _))
  | escape escape =>
    dsimp only
    split
    · exact .error _ _
    · exact .ok (h.setMode (.escape _))
    · exact .ok (h.setMode .boundary)
    · exact .ok (h.pushPrimitive _)
  | boundary =>
    dsimp only
    split
    · exact .ok (h.setMode .boundaryBrace)
    · exact (h.pushPrimitive _).start c
  | boundaryBrace =>
    dsimp only
    split
    · exact .ok (h.setMode (.boundaryName _))
    · have boundary : L.Parts rNames ⟨.look .wordBoundary, 0⟩ ⟨.look .wordBoundary, 0⟩ :=
        ⟨L.look _ _, .refl 0⟩
      intro r' hr
      cases counted : (Counts.low none).read c with
      | error e => simp [counted, bind, Except.bind] at hr
      | ok out =>
        rw [counted] at hr
        cases out with
        | inl counts => exact Follows.ok (h.setMode (.counts boundary counts)) r' hr
        | inr rounds => exact Follows.ok (h.setMode (.quantified boundary rounds true)) r' hr
  | boundaryName name =>
    dsimp only
    split
    · exact .ok (h.setMode (.boundaryName _))
    · split
      · split
        · exact .ok (h.pushPrimitive _)
        · exact .error _ _
      · exact .error _ _
  | group =>
    dsimp only
    split
    · exact .ok (h.setMode .groupMark)
    · exact (h.openGroup (by simp) h.flags).start c
  | groupMark =>
    dsimp only
    split
    · exact .error _ _
    · exact .error _ _
    · exact .ok (h.setMode .groupAngle)
    · exact .ok (h.setMode .groupLetter)
    · exact h.flagCharacter (t := ⟨flags, [], false, false⟩) (u := ⟨flags', [], false, false⟩)
        ⟨h.flags, rfl, rfl, rfl⟩ c
  | groupAngle =>
    dsimp only
    split
    · exact .error _ _
    · exact h.nameCharacter [] c
  | groupLetter =>
    dsimp only
    split
    · exact .ok (h.setMode (.groupName _))
    · exact .error _ _
  | groupName name => exact h.nameCharacter name c
  | groupFlags hs => exact h.flagCharacter hs c
  | bracket classes =>
    intro r' hr
    dsimp only at hr
    split at hr
    · cases hr
    · rename_i more
      obtain ⟨y, hy, classes⟩ := L.classMore h.flags.ignoreCase classes more
      simp only [hy]
      exact Follows.ok (h.setMode (.bracket classes)) r' hr
    · rename_i complete
      obtain ⟨t, ht, one, depth⟩ := L.classSet rNames h.flags.ignoreCase classes complete
      simp only [ht]
      exact Follows.ok (h.push (.part ⟨one, .inl depth⟩)) r' hr

theorem step (h : S.Readers r s) (c : Char) : S.Follows (r.step c) (s.step c) := by
  unfold Reader.step
  rw [← h.comment, ← h.skipsBlanks]
  split
  · exact .ok ⟨h.flags, h.nested, h.names, rfl, h.mode⟩
  · split
    · exact .ok h
    · split
      · exact .ok ⟨h.flags, h.nested, h.names, rfl, h.mode⟩
      · exact h.character c

/-! ### Texts -/

theorem run (h : S.Readers r s) (text : List Char) :
    S.Follows (text.foldlM Reader.step r) (text.foldlM Reader.step s) := by
  induction text generalizing r s with
  | nil => exact .ok h
  | cons c text ih => exact (h.step c).bind ih

theorem settle (h : S.Readers r s) : S.Follows r.settle s.settle := by
  obtain ⟨flags, inner, outer, rNames, comment, mode⟩ := r
  obtain ⟨flags', inner', outer', sNames, comment', mode'⟩ := s
  unfold Reader.settle
  cases h.mode with
  | plain => exact .ok h
  | quantified hp rounds => exact h.complete hp rounds true
  | boundary => exact .ok (h.pushPrimitive _)
  | _ => exact .error _ _

end Readers

end Likeness.Surroundings

namespace Reader

variable {r r' : Reader}

/-- Completing a unit adds to the innermost group only. -/
theorem settle_frame (h : r.settle = .ok r') :
    r'.outer = r.outer ∧ r'.names = r.names ∧ r'.comment = r.comment := by
  unfold settle complete at h
  split at h
  · cases h; exact ⟨rfl, rfl, rfl⟩
  · split at h
    · cases h; exact ⟨rfl, rfl, rfl⟩
    · cases h
  all_goals cases h
  exact ⟨rfl, rfl, rfl⟩

theorem finish_eq_ok_iff {p : Pattern} :
    r.finish = .ok p ↔ ∃ r', r.settle = .ok r' ∧ r'.outer = [] ∧
      r'.inner.part.depth ≤ depthLimit ∧ r'.inner.part.pattern = p := by
  rw [finish, bind_eq_ok_iff]
  refine exists_congr fun r' => and_congr_right fun _ => ?_
  cases r'.outer with
  | cons => simp [throw, throwThe, MonadExceptOf.throw]
  | nil =>
    by_cases deep : depthLimit < r'.inner.part.depth
    · simp [deep, Nat.not_le.mpr deep, throw, throwThe, MonadExceptOf.throw]
    · simp [deep, Nat.not_lt.mp deep, pure, Except.pure]

end Reader

namespace Likeness.Surroundings.Readers

variable {L : Likeness} {S : L.Surroundings} {r s : Reader}

/-- What comes of readers that both started outside of any group. -/
theorem finish (h : S.Readers r s) (outermost : S.outer = []) {p : Pattern}
    (hr : r.finish = .ok p) :
    (∃ q, s.finish = .ok q ∧ L.pattern r.names p q) ∨ (L.mayFail ∧ ∃ e, s.finish = .error e) := by
  obtain ⟨r', hr', houter, shallow, rfl⟩ := Reader.finish_eq_ok_iff.mp hr
  rcases h.settle r' hr' with ⟨s', hs', like⟩ | ⟨mayFail, e, hs'⟩
  · have part := like.nested.group.part
    have closed : s'.outer = [] := (houter ▸ like.nested).outer_eq.trans outermost
    by_cases shallow' : s'.inner.part.depth ≤ Reader.depthLimit
    · refine .inl ⟨_, Reader.finish_eq_ok_iff.mpr ⟨s', hs', closed, shallow', rfl⟩, ?_⟩
      rw [← (Reader.settle_frame hr').2.1]
      exact part.pattern
    · refine .inr ⟨part.depth.resolve_left fun same => shallow' (same ▸ shallow), .nestedTooDeep, ?_⟩
      rw [Reader.finish, hs', ok_bind, closed, if_neg (by simp), if_pos (Nat.not_le.mp shallow')]
      rfl
  · refine .inr ⟨mayFail, e, ?_⟩
    rw [Reader.finish, hs']
    rfl

end Likeness.Surroundings.Readers

end MediaRange.Pattern
