import MediaRange.Proofs.Grammar.Custom
import MediaRange.Proofs.Pattern.Window
import MediaRange.Proofs.Rewriting.SignCount
import MediaRange.Proofs.Rewriting.Verdicts

/-!
# What the grammar captures

A custom value may hold any characters, so a match of the grammar cannot be found from its text
alone. `single_captures` and `double_captures` go the other way: they follow a match from one
cursor to the next, to the words that its groups have captured, and count the signs on the way.
-/

namespace MediaRange

open Unicode Pattern

namespace Cursor

/-- No word goes on from before the cursor. -/
def Quiet (k : Cursor) : Prop := k.before.any isWord = false

theorem Leads.quiet {k l : Cursor} {u : List Char} (h : k.Leads u l)
    (hu : ∀ c ∈ u, isWord c = false) (hk : u = [] → k.Quiet) : l.Quiet := by
  rw [Quiet, h.before]
  cases hlast : u.getLast? with
  | none => exact hk (List.getLast?_eq_none_iff.mp hlast)
  | some c => exact hu c (List.mem_of_getLast? hlast)

end Cursor

namespace Pattern

theorem mem_ways_slot {name : String} {p q : Pattern} {k : Cursor} {trail : Trail} {w : Way}
    (hw : w ∈ ways (slot name p q) k trail) :
    ∃ u a v y e, (∀ c ∈ u, isBlank c = true) ∧ k.Leads u a ∧
      v ∈ ways p a ((.opening name, a.position) :: trail) ∧ (∀ c ∈ y, isBlank c = true) ∧
      v.stop.Leads y e ∧ w ∈ ways q e ((.closing name, v.stop.position) :: v.trail) := by
  rw [slot, ways_seq] at hw
  obtain ⟨a, ha, hw⟩ := List.mem_flatMap.mp hw
  obtain ⟨u, hu, hka, htrail⟩ := hasWords_blanks.leads ha
  rw [ways_group_seq, htrail] at hw
  obtain ⟨v, hv, hw⟩ := List.mem_flatMap.mp hw
  rw [ways_seq] at hw
  obtain ⟨e, he, hw⟩ := List.mem_flatMap.mp hw
  obtain ⟨y, hy, hve, htrail'⟩ := hasWords_blanks.leads he
  exact ⟨u, a.stop, v, y, e.stop, hu, hka, hv, hy, hve, htrail' ▸ hw⟩

end Pattern

def Pattern.Way.matchFrom (w : Way) (k : Cursor) : Match :=
  ⟨k.position, k.rest.take (w.stop.position - k.position), w.trail⟩

theorem text_of_leads {k : Cursor} {w : Way} {u : List Char} (h : k.Leads u w.stop) :
    (w.matchFrom k).text = u := by
  rw [Way.matchFrom, h.rest, h.position, Nat.add_sub_cancel_left, List.take_left]

/-- A match captures what has been read between the two ends of a group. -/
theorem group_of_leads {k a b : Cursor} {w : Way} {front x back : List Char}
    (hfront : k.Leads front a) (hx : a.Leads x b) (hback : b.Leads back w.stop) {name : String}
    (marks : Trail) {trail : Trail}
    (htrail : w.trail =
      marks ++ (.closing name, b.position) :: (.opening name, a.position) :: trail)
    (fresh : IsFresh name marks) : (w.matchFrom k).group name = x := by
  have path := hfront.trans (hx.trans hback)
  have text : k.rest.take (w.stop.position - k.position) = front ++ (x ++ back) :=
    text_of_leads path
  have hopen : w.trail.find? (·.1 = .opening name) = some (.opening name, a.position) := by
    rw [htrail, find?_fresh fresh (.inl rfl)]
    simp
  have hclose : w.trail.find? (·.1 = .closing name) = some (.closing name, b.position) := by
    rw [htrail, find?_fresh fresh (.inr rfl)]
    simp
  exact group_eq text hopen hclose hfront.position hx.position

/-! ### The parts of a range -/

section

variable {body : Option Pattern} {recognized : List Char → Prop}

def IsCaptured (recognized : List Char → Prop) (x : List Char) : Prop :=
  x = [] ∨ IsNumber x ∨ recognized x

/-- Every pattern for custom values has a wider one that recognizes its words. -/
def Recognizes (body : Option Pattern) (recognized : List Char → Prop) : Prop :=
  ∀ p ∈ body, ∃ q, Narrower [] p q ∧ ∀ x, q.occursIn x = true → recognized x

theorem recognizes_none : Recognizes none recognized := by simp [Recognizes]

theorem occursIn_of_ways {q : Pattern} {x : List Char} {v : Way} (hv : v ∈ ways q (.start x) []) :
    q.occursIn x = true := by
  have found : (q.matchAt (.start x)).isSome = true := by
    rw [matchAt_eq_head, Option.isSome_map, List.isSome_head?]
    exact List.ne_nil_of_mem hv
  cases x with
  | nil => exact found
  | cons c x => exact Bool.or_eq_true_iff.mpr (.inl found)

theorem value_captures (hbody : Recognizes body recognized) {a : Cursor} {trail : Trail} {v : Way}
    (hv : v ∈ ways (Grammar.value body) a trail) (quiet : a.Quiet)
    (after : v.stop.rest.head?.any isWord = false) :
    v.trail = trail ∧ ∃ x, a.Leads x v.stop ∧ IsCaptured recognized x := by
  have number {v : Way} (hv : v ∈ ways (opt true Grammar.number) a trail) :
      v.trail = trail ∧ ∃ x, a.Leads x v.stop ∧ IsCaptured recognized x := by
    rcases mem_ways_opt.mp hv with hv | rfl
    · obtain ⟨x, hx, path, htrail⟩ := Grammar.hasWords_number.leads hv
      exact ⟨htrail, x, path, .inr (.inl hx)⟩
    · exact ⟨rfl, [], .refl a, .inl rfl⟩
  cases body with
  | none => exact number hv
  | some p =>
    rw [Grammar.value, ways_alt] at hv
    rcases List.mem_append.mp hv with hv | hv
    · exact number hv
    · rcases mem_ways_opt.mp hv with hv | rfl
      · obtain ⟨q, narrower, hq⟩ := hbody p rfl
        obtain ⟨x, path⟩ := ways_leads hv
        have window : Window v.stop.rest a (.start x) := ⟨path.rest, .inr ⟨rfl, quiet⟩, after⟩
        obtain ⟨u, hu, -⟩ := narrower.window window hv (Nat.le_refl _) []
        exact ⟨narrower.trail_eq hv, x, path, .inr (.inr (hq x (occursIn_of_ways hu)))⟩
      · exact ⟨rfl, [], .refl a, .inl rfl⟩

/-- A slot for a value, before something that goes on no word. -/
theorem value_slot_captures (hbody : Recognizes body recognized) {name : String} {q : Pattern}
    (stop : ∀ k trail, ways q k trail ≠ [] → k.rest.head?.any isWord = false) {k : Cursor}
    {trail : Trail} {w : Way} (hw : w ∈ ways (slot name (Grammar.value body) q) k trail)
    (quiet : k.Quiet) :
    ∃ u a x b y e, k.Leads u a ∧ a.Leads x b ∧ b.Leads y e ∧ IsCaptured recognized x ∧
      signCount u = 0 ∧ signCount y = 0 ∧
      w ∈ ways q e ((.closing name, b.position) :: (.opening name, a.position) :: trail) := by
  obtain ⟨u, a, v, y, e, hu, ha, hv, hy, he, hw⟩ := mem_ways_slot hw
  have after : v.stop.rest.head?.any isWord = false := by
    rw [he.rest]
    cases y with
    | nil => exact stop _ _ (List.ne_nil_of_mem hw)
    | cons c y => exact isWord_of_isBlank (hy c List.mem_cons_self)
  have quiet' := ha.quiet (fun c hc => isWord_of_isBlank (hu c hc)) fun _ => quiet
  obtain ⟨htrail, x, hx, captured⟩ := value_captures hbody hv quiet' after
  exact ⟨u, a, x, v.stop, y, e, ha, hx, he, captured, signCount_blanks hu, signCount_blanks hy,
    htrail ▸ hw⟩

theorem name_slot_leads {greedy : Bool} {q : Pattern} {k : Cursor} {trail : Trail} {w : Way}
    (hw : w ∈ ways (slot "feature" (plus greedy (one Grammar.nameSet)) q) k trail) :
    ∃ u e marks, k.Leads u e ∧ signCount u = 0 ∧
      (∀ name, name ≠ "feature" → IsFresh name marks) ∧ w ∈ ways q e (marks ++ trail) := by
  obtain ⟨u, a, v, y, e, hu, ha, hv, hy, he, hw⟩ := mem_ways_slot hw
  obtain ⟨x, isName, hx, htrail⟩ := (Grammar.hasWords_name greedy).leads hv
  rw [htrail] at hw
  refine ⟨u ++ (x ++ y), e, [(.closing "feature", v.stop.position), (.opening "feature", a.position)],
    ha.trans (hx.trans he), ?_, fun name distinct => ?_, hw⟩
  · simp [signCount_blanks hu, signCount_blanks hy, signCount_spelling isName.isSpellingChar]
  · simp [IsFresh, distinct.symm]

theorem isWord_of_isSign {c : Char} (h : isSign c = true) : isWord c = false := by
  obtain ⟨s, rfl⟩ := isSign_iff.mp h
  cases s <;> decide

theorem comparison_leads {sign : Pattern} (hsign : Grammar.TakesSign sign) {op eq : String}
    {q : Pattern} {k : Cursor} {trail : Trail} {w : Way}
    (hw : w ∈ ways (Grammar.comparison sign op eq q) k trail) :
    ∃ u e marks, k.Leads u e ∧ signCount u = 1 ∧ e.Quiet ∧
      (∀ name, name ≠ op → name ≠ eq → IsFresh name marks) ∧ w ∈ ways q e (marks ++ trail) := by
  rw [Grammar.comparison, ways_group_seq, hsign] at hw
  obtain ⟨v, hv, hw⟩ := List.mem_flatMap.mp hw
  split at hv
  · rename_i head
    obtain rfl := List.mem_singleton.mp hv
    obtain ⟨c, hc, sign⟩ := (Option.any_eq_true _ _).mp head
    obtain ⟨r, hr⟩ := List.head?_eq_some_iff.mp hc
    have path := Cursor.leads_one hr
    have quiet : (k.skip 1).Quiet :=
      path.quiet (by simpa using isWord_of_isSign sign) (by simp)
    rw [ways_group_seq] at hw
    obtain ⟨v', hv', hw⟩ := List.mem_flatMap.mp hw
    obtain ⟨u, hu, path', htrail⟩ := (Grammar.hasWords_optionally '=').leads hv'
    rw [htrail] at hw
    refine ⟨[c] ++ u, v'.stop, [(.closing eq, v'.stop.position), (.opening eq, (k.skip 1).position),
      (.closing op, (k.skip 1).position), (.opening op, k.position)], path.trans path',
      ?_, path'.quiet ?_ fun _ => quiet, fun name hop heq => ?_, hw⟩
    · rcases hu with rfl | rfl
      · simp [signCount, sign, show isSign '=' = false by decide]
      · simp [signCount, sign]
    · rcases hu with rfl | rfl
      · simpa using (by decide : isWord '=' = false)
      · simp
    · simp [IsFresh, hop.symm, heq.symm]
  · cases hv

theorem head_of_comparison {sign : Pattern} (hsign : Grammar.TakesSign sign) {op eq : String}
    {q : Pattern} (k : Cursor) (trail : Trail)
    (h : ways (Grammar.comparison sign op eq q) k trail ≠ []) :
    k.rest.head?.any isWord = false := by
  obtain ⟨c, hc, sign⟩ := Grammar.stop_comparison hsign k trail h
  rw [Option.mem_def.mp hc]
  exact isWord_of_isSign sign

theorem head_of_closing (k : Cursor) (trail : Trail) (h : ways Grammar.closing k trail ≠ []) :
    k.rest.head?.any isWord = false := by
  obtain ⟨c, hc, closes⟩ := Grammar.stop_closing k trail h
  rw [Option.mem_def.mp hc, beq_iff_eq.mp closes]
  decide

theorem mem_ways_character {c : Char} {k : Cursor} {trail : Trail} {w : Way}
    (hw : w ∈ ways (one (.single c)) k trail) :
    k.Leads [c] w.stop ∧ w.trail = trail := by
  rw [ways_one] at hw
  split at hw
  · rename_i head
    obtain rfl := List.mem_singleton.mp hw
    obtain ⟨r, hr⟩ := List.head?_eq_some_iff.mp ((Grammar.any_has_single c _).mp head)
    exact ⟨Cursor.leads_one hr, rfl⟩
  · cases hw

/-! ### Matches -/

/-- A match that is found is the preferred way at some cursor of the text. -/
theorem mem_segmentsFrom {p : Pattern} {text : List Char} {skip position : Nat}
    {before : Option Char} {m : Match} (hm : .found m ∈ p.segmentsFrom skip position before text) :
    ∃ u k w, Cursor.Leads ⟨position, before, text⟩ u k ∧ (ways p k []).head? = some w ∧
      m = w.matchFrom k := by
  have later {c : Char} {rest : List Char} {position : Nat} {before : Option Char}
      (h : ∃ u k w, Cursor.Leads ⟨position + 1, some c, rest⟩ u k ∧ (ways p k []).head? = some w ∧
        m = w.matchFrom k) :
      ∃ u k w, Cursor.Leads ⟨position, before, c :: rest⟩ u k ∧ (ways p k []).head? = some w ∧
        m = w.matchFrom k := by
    obtain ⟨u, k, w, path, hw, same⟩ := h
    exact ⟨[c] ++ u, k, w, (Cursor.leads_one rfl).trans path, hw, same⟩
  induction text generalizing skip position before with
  | nil => cases hm
  | cons c rest ih =>
    rw [segmentsFrom.eq_def] at hm
    dsimp only at hm
    split at hm
    · exact later (ih hm)
    · split at hm
      · rename_i hit found
        split at hm
        · rcases List.mem_cons.mp hm with same | hm
          · rw [matchAt_eq_head, Option.map_eq_some_iff] at found
            obtain ⟨w, hw, rfl⟩ := found
            cases same
            exact ⟨[], _, w, .refl _, hw, rfl⟩
          · exact later (ih hm)
        · exact later (ih ((List.mem_cons.mp hm).resolve_left (by simp)))
      · exact later (ih ((List.mem_cons.mp hm).resolve_left (by simp)))

theorem mem_matchesIn {p : Pattern} {text : List Char} {m : Match} (hm : m ∈ p.matchesIn text) :
    ∃ u k w, (Cursor.start text).Leads u k ∧ (ways p k []).head? = some w ∧
      m = w.matchFrom k := by
  rw [matchesIn] at hm
  obtain ⟨segment, hsegment, found⟩ := List.mem_filterMap.mp hm
  cases segment with
  | plain c => cases found
  | found m' =>
    cases found
    exact mem_segmentsFrom hsegment

theorem single_way_captures (hbody : Recognizes body recognized) {k : Cursor} {w : Way}
    (hw : w ∈ ways (Grammar.singleOf (Grammar.value body)) k []) :
    IsCaptured recognized ((w.matchFrom k).group "value") ∧
      signCount (w.matchFrom k).text = signCount ((w.matchFrom k).group "value") + 1 := by
  rw [Grammar.singleOf, ways_seq] at hw
  obtain ⟨v, hv, hw⟩ := List.mem_flatMap.mp hw
  obtain ⟨first, htrail⟩ := mem_ways_character hv
  obtain ⟨u, k₁, marks, name, noSign, -, hw⟩ := name_slot_leads (htrail ▸ hw)
  obtain ⟨u', k₂, marks', sign, oneSign, quiet, -, hw⟩ :=
    comparison_leads Grammar.takesSign_single hw
  obtain ⟨u'', a, x, b, y, e, ha, hx, he, captured, before, after, hw⟩ :=
    value_slot_captures hbody head_of_closing hw quiet
  obtain ⟨last, htrail'⟩ := mem_ways_character hw
  have path := first.trans (name.trans (sign.trans ha))
  rw [group_of_leads path hx (he.trans last) [] htrail' (by simp [IsFresh]),
    text_of_leads (path.trans (hx.trans (he.trans last)))]
  refine ⟨captured, ?_⟩
  simp only [signCount_append, noSign, oneSign, before, after, signCount_opening, signCount_closing]
  omega

theorem double_way_captures (hbody : Recognizes body recognized) {k : Cursor} {w : Way}
    (hw : w ∈ ways (Grammar.doubleOf (Grammar.value body)) k []) :
    (IsCaptured recognized ((w.matchFrom k).group "left") ∧
        IsCaptured recognized ((w.matchFrom k).group "right")) ∧
      signCount (w.matchFrom k).text =
        signCount ((w.matchFrom k).group "left") + signCount ((w.matchFrom k).group "right") + 2 := by
  rw [Grammar.doubleOf, ways_seq] at hw
  obtain ⟨v, hv, hw⟩ := List.mem_flatMap.mp hw
  obtain ⟨first, htrail⟩ := mem_ways_character hv
  have quiet : v.stop.Quiet := first.quiet (by simpa using (by decide : isWord '(' = false)) (by simp)
  obtain ⟨u, a, x, b, y, e, ha, hx, he, captured, before, after, hw⟩ :=
    value_slot_captures hbody (head_of_comparison Grammar.takesSign_double) (htrail ▸ hw) quiet
  obtain ⟨u₁, k₁, marks₁, sign₁, oneSign₁, -, fresh₁, hw⟩ :=
    comparison_leads Grammar.takesSign_double hw
  obtain ⟨u₂, k₂, marks₂, name, noSign, fresh₂, hw⟩ := name_slot_leads hw
  obtain ⟨u₃, k₃, marks₃, sign₂, oneSign₂, quiet', fresh₃, hw⟩ :=
    comparison_leads Grammar.takesSign_double hw
  obtain ⟨u', a', x', b', y', e', ha', hx', he', captured', before', after', hw⟩ :=
    value_slot_captures hbody head_of_closing hw quiet'
  obtain ⟨last, htrail'⟩ := mem_ways_character hw
  have between := he.trans (sign₁.trans (name.trans (sign₂.trans ha')))
  have front := first.trans ha
  have back := between.trans (hx'.trans (he'.trans last))
  have fresh : IsFresh "left" ([(.closing "right", b'.position), (.opening "right", a'.position)] ++
      (marks₃ ++ (marks₂ ++ marks₁))) :=
    IsFresh.append (by simp [IsFresh]) ((fresh₃ _ (by decide) (by decide)).append
      ((fresh₂ _ (by decide)).append (fresh₁ _ (by decide) (by decide))))
  rw [group_of_leads front hx back _ (by simpa using htrail') fresh,
    group_of_leads (front.trans (hx.trans between)) hx' (he'.trans last) [] htrail'
      (by simp [IsFresh]), text_of_leads (front.trans (hx.trans back))]
  refine ⟨⟨captured, captured'⟩, ?_⟩
  simp only [signCount_append, noSign, oneSign₁, oneSign₂, before, before', after, after',
    signCount_opening, signCount_closing]
  omega

theorem single_captures (hbody : Recognizes body recognized) {text : List Char} {m : Match}
    (hm : m ∈ (Grammar.singleOf (Grammar.value body)).matchesIn text) :
    IsCaptured recognized (m.group "value") ∧
      signCount m.text = signCount (m.group "value") + 1 := by
  obtain ⟨-, k, w, -, hw, rfl⟩ := mem_matchesIn hm
  exact single_way_captures hbody (List.mem_of_mem_head? hw)

theorem double_captures (hbody : Recognizes body recognized) {text : List Char} {m : Match}
    (hm : m ∈ (Grammar.doubleOf (Grammar.value body)).matchesIn text) :
    (IsCaptured recognized (m.group "left") ∧ IsCaptured recognized (m.group "right")) ∧
      signCount m.text = signCount (m.group "left") + signCount (m.group "right") + 2 := by
  obtain ⟨-, k, w, -, hw, rfl⟩ := mem_matchesIn hm
  exact double_way_captures hbody (List.mem_of_mem_head? hw)

end

end MediaRange
