import MediaRange.Proofs.Pattern.Words
import MediaRange.Proofs.Unicode.Trimmed

/-!
# Slots

A slot is a named group with any number of blanks around it. `head_slot_iff` shows what a slot
captures: the text up to the next stopping character, trimmed. The blanks before a word could also
belong to the word, and the preference for a long run decides that they do not. By
`Widens.head_slot` a slot captures the same if its pattern has more words, as long as these come
last.
-/

namespace MediaRange.Pattern

open Unicode

def blanks : Pattern := star true (one .blank)

/-- A named group among blanks, and then another pattern. -/
def slot (name : String) (p q : Pattern) : Pattern :=
  seq blanks (seq (group name p) (seq blanks q))

def slotTrail (name : String) (position : Nat) (u : List Char) (trail : Trail) : Trail :=
  (.closing name, position + (leadingBlanks u).length + (trim u).length) ::
    (.opening name, position + (leadingBlanks u).length) :: trail

theorem ways_group_seq (name : String) (p q : Pattern) (k : Cursor) (trail : Trail) :
    ways (seq (group name p) q) k trail =
      (ways p k ((.opening name, k.position) :: trail)).flatMap fun w =>
        ways q w.stop ((.closing name, w.stop.position) :: w.trail) := by
  simp [group, ways_seq, List.flatMap_assoc]

theorem hasWords_blanks : HasWords blanks IsBlankText := hasWords_star_one true .blank

/-- If all but one way lead nowhere, the preferred way leads through that one. -/
theorem head_flatMap_unique {ws : List Way} {f : Way → List Way} {w : Way} (hw : w ∈ ws)
    (unique : ∀ v ∈ ws, f v ≠ [] → v = w) : (ws.flatMap f).head? = (f w).head? := by
  induction ws with
  | nil => cases hw
  | cons v ws ih =>
    rw [List.flatMap_cons, List.head?_append]
    by_cases hv : f v = []
    · rcases List.mem_cons.mp hw with rfl | hw
      · by_cases hmem : w ∈ ws
        · rw [ih hmem fun v hv => unique v (List.mem_cons_of_mem _ hv), hv]; rfl
        · have none : ws.flatMap f = [] := List.flatMap_eq_nil_iff.mpr fun v' hv' =>
            Decidable.not_not.mp fun hne =>
              hmem (unique v' (List.mem_cons_of_mem _ hv') hne ▸ hv')
          rw [hv, none]; rfl
      · rw [ih hw fun v hv => unique v (List.mem_cons_of_mem _ hv), hv]; rfl
    · rw [unique v List.mem_cons_self hv]
      obtain ⟨first, others, h⟩ := List.exists_cons_of_ne_nil
        (unique v List.mem_cons_self hv ▸ hv : f w ≠ [])
      rw [h]; rfl

/-- Two cuts before the first stopping character are the same. -/
theorem cut_unique (stops : Char → Bool) {u r v s : List Char} (h : u ++ r = v ++ s)
    (hu : ∀ c ∈ u, stops c = false) (hv : ∀ c ∈ v, stops c = false)
    (hr : ∃ c ∈ r.head?, stops c = true) (hs : ∃ c ∈ s.head?, stops c = true) : u = v := by
  obtain ⟨c, hc, stop⟩ := hr
  obtain ⟨d, hd, stop'⟩ := hs
  rcases List.append_eq_append_iff.mp h with ⟨more, rfl, rfl⟩ | ⟨more, rfl, rfl⟩
  · cases more with
    | nil => simp
    | cons e more =>
      obtain rfl : e = c := by simpa using hc
      simp [hv e (by simp)] at stop
  · cases more with
    | nil => simp
    | cons e more =>
      obtain rfl : e = d := by simpa using hd
      simp [hu e (by simp)] at stop'

/-- What a slot needs to know of the words in it and of what comes after it. -/
structure SlotRules (p q : Pattern) (words : List Char → Prop) (stops : Char → Bool) : Prop where
  hasWords : HasWords p words
  /-- No word ends with a blank. -/
  last : ∀ u, words u → ∀ c ∈ u.getLast?, isBlank c = false
  /-- A word without some blanks at its start is a word. -/
  trimLeft : ∀ u, words u → words (trimLeft u)
  goesOn : ∀ u, words u → ∀ c ∈ u, stops c = false
  goesOnBlank : ∀ c, isBlank c = true → stops c = false
  /-- What comes after the slot starts with a stopping character. -/
  stop : ∀ k trail, ways q k trail ≠ [] → ∃ c ∈ k.rest.head?, stops c = true

variable {p q : Pattern} {words : List Char → Prop} {stops : Char → Bool}

theorem head_blanks_stop (h : SlotRules p q words stops) {k : Cursor} {trail : Trail}
    {b r : List Char} (hk : k.rest = b ++ r) (hb : IsBlankText b)
    (hq : ways q (k.skip b.length) trail ≠ []) :
    (ways (seq blanks q) k trail).head? = (ways q (k.skip b.length) trail).head? := by
  rw [ways_seq]
  refine head_flatMap_unique (w := ⟨k.skip b.length, trail⟩)
    ((hasWords_blanks k trail _).mpr ⟨b, r, hk, hb, rfl⟩) fun v hv hne => ?_
  obtain ⟨b', r', hk', hb', rfl⟩ := (hasWords_blanks k trail v).mp hv
  have same : b' = b := cut_unique stops (hk'.symm.trans hk)
    (fun c hc => h.goesOnBlank c (hb' c hc)) (fun c hc => h.goesOnBlank c (hb c hc))
    (by simpa [hk'] using h.stop _ _ hne) (by simpa [hk] using h.stop _ _ hq)
  rw [same]

theorem head_word_stop (h : SlotRules p q words stops) (name : String) {k : Cursor} (trail : Trail)
    {x b r : List Char} (hk : k.rest = (x ++ b) ++ r) (hx : words x) (hxt : IsTrimmed x)
    (hb : IsBlankText b) (hnil : x = [] → b = [])
    (hq : ways q (k.skip (x ++ b).length)
      ((.closing name, k.position + x.length) :: (.opening name, k.position) :: trail) ≠ []) :
    (ways (seq (group name p) (seq blanks q)) k trail).head? =
      (ways q (k.skip (x ++ b).length)
        ((.closing name, k.position + x.length) :: (.opening name, k.position) :: trail)).head? := by
  have position : (k.skip x.length).position = k.position + x.length :=
    k.skip_position (by rw [hk]; simp)
  have after : k.skip (x ++ b).length = (k.skip x.length).skip b.length := by
    rw [List.length_append, Cursor.skip_add]
  have goesOn : ∀ {y c : List Char}, words y → IsBlankText c → ∀ e ∈ y ++ c, stops e = false := by
    intro y c hy hc e he
    rcases List.mem_append.mp he with he | he
    · exact h.goesOn y hy e he
    · exact h.goesOnBlank e (hc e he)
  rw [ways_group_seq, head_flatMap_unique (w := ⟨k.skip x.length, (.opening name, k.position) :: trail⟩)
    ((h.hasWords k _ _).mpr ⟨x, b ++ r, by rw [hk, List.append_assoc], hx, rfl⟩)]
  · dsimp only
    rw [position, head_blanks_stop h (b := b) (r := r) (by simp [hk]) hb (by rwa [← after]), ← after]
  · intro v hv hne
    obtain ⟨x', r', hk', hx', rfl⟩ := (h.hasWords k _ v).mp hv
    obtain ⟨b', s, hs, hb', hq'⟩ := hasWords_blanks.seq_ne_nil.mp hne
    have hk'' : k.rest = (x' ++ b') ++ s := by
      have : r' = b' ++ s := by simpa [hk'] using hs
      rw [hk', this, List.append_assoc]
    have same : x' ++ b' = x ++ b := cut_unique stops (hk''.symm.trans hk) (goesOn hx' hb') (goesOn hx hb)
      (by simpa [hk''] using h.stop _ _ hq') (by simpa [hk] using h.stop _ _ hq)
    have trimmed : IsTrimmed x' := by
      refine ⟨fun c hc => ?_, h.last x' hx'⟩
      have hc' : c ∈ (x ++ b).head? := by
        rw [← same]
        cases x' with
        | nil => simp at hc
        | cons d x' => simpa using hc
      cases x with
      | nil => simp [hnil rfl] at hc'
      | cons d x => exact hxt.first c (by simpa using hc')
    have : x' = x := by
      rw [← trim_padded isBlankText_nil trimmed hb', same,
        trim_padded isBlankText_nil hxt hb]
    rw [this]

/-- A pattern that prefers all ways of another one to its own. -/
def Widens (p wide : Pattern) : Prop :=
  ∀ k trail, ∃ more, ways wide k trail = ways p k trail ++ more

theorem Widens.refl (p : Pattern) : Widens p p := fun _ _ => ⟨[], (List.append_nil _).symm⟩

theorem widens_alt (p other : Pattern) : Widens p (alt p other) :=
  fun k trail => ⟨ways other k trail, ways_alt p other k trail⟩

/-- Where a group matches, its widened pattern changes nothing. -/
theorem Widens.head_group_seq {wide : Pattern} (hwide : Widens p wide) {name : String} {k : Cursor}
    {trail : Trail} (hne : ways (seq (group name p) q) k trail ≠ []) :
    (ways (seq (group name wide) q) k trail).head? = (ways (seq (group name p) q) k trail).head? := by
  obtain ⟨more, hmore⟩ := hwide k ((.opening name, k.position) :: trail)
  rw [ways_group_seq] at hne ⊢
  obtain ⟨w, hw⟩ := Option.ne_none_iff_exists'.mp (mt List.head?_eq_none_iff.mp hne)
  rw [ways_group_seq, hmore, List.flatMap_append, List.head?_append, hw, Option.some_or]

theorem Widens.head_slot {wide : Pattern} (hwide : Widens p wide) (h : SlotRules p q words stops)
    (name : String) {k : Cursor} {trail : Trail} {u r : List Char} (hk : k.rest = u ++ r)
    (hu : words (trim u))
    (hq : ways q (k.skip u.length) (slotTrail name k.position u trail) ≠ []) :
    (ways (slot name wide q) k trail).head? =
      (ways q (k.skip u.length) (slotTrail name k.position u trail)).head? := by
  obtain ⟨c, hc, stop⟩ := h.stop _ _ hq
  have hr : c ∈ r.head? := by simpa [hk] using hc
  have parts := leading_append_trim_append_trailing u
  have hnil := trailingBlanks_eq_nil u
  have htrim := isTrimmed_trim u
  have hlead := isBlankText_leadingBlanks u
  have htail := isBlankText_trailingBlanks (trimLeft u)
  unfold slotTrail at hq ⊢
  generalize leadingBlanks u = lead at *
  generalize trim u = word at *
  generalize trailingBlanks (trimLeft u) = tail at *
  subst parts
  have hk' : (k.skip lead.length).rest = (word ++ tail) ++ r := by simp [hk]
  have position : (k.skip lead.length).position = k.position + lead.length :=
    k.skip_position (by rw [hk]; simp)
  have after : k.skip (lead ++ (word ++ tail)).length =
      (k.skip lead.length).skip (word ++ tail).length := by
    rw [List.length_append, Cursor.skip_add]
  have word_stop := head_word_stop h name trail hk' hu htrim htail hnil
    (by rwa [← after, position])
  rw [after] at hq ⊢
  rw [position] at word_stop
  have narrow : ways (seq (group name p) (seq blanks q)) (k.skip lead.length) trail ≠ [] := by
    intro hempty
    rw [hempty] at word_stop
    exact hq (List.head?_eq_none_iff.mp word_stop.symm)
  have wide_stop := (hwide.head_group_seq narrow).trans word_stop
  refine (head_star_seq (s := .blank) (u := lead) (r := (word ++ tail) ++ r) (by simp [hk]) hlead
    ?_ ?_).trans wide_stop
  · -- The longest run of blanks ends before the word, or before the stop if there is no word.
    cases word with
    | cons d word => simpa using htrim.first d
    | nil =>
      have notBlank : isBlank c = false := by
        cases hb : isBlank c with
        | false => rfl
        | true => simp [h.goesOnBlank c hb] at stop
      simpa [hnil rfl, Option.mem_def.mp hr] using notBlank
  · intro _ _ _ _ hempty
    rw [hempty] at wide_stop
    exact hq (List.head?_eq_none_iff.mp wide_stop.symm)

theorem head_slot (h : SlotRules p q words stops) (name : String) {k : Cursor} {trail : Trail}
    {u r : List Char} (hk : k.rest = u ++ r) (hu : words (trim u))
    (hq : ways q (k.skip u.length) (slotTrail name k.position u trail) ≠ []) :
    (ways (slot name p q) k trail).head? =
      (ways q (k.skip u.length) (slotTrail name k.position u trail)).head? :=
  (Widens.refl p).head_slot h name hk hu hq

/-- A slot captures the trimmed text up to the next stopping character, if it is a word. -/
theorem head_slot_iff (h : SlotRules p q words stops) (name : String) (k : Cursor) (trail : Trail)
    (w : Way) :
    (ways (slot name p q) k trail).head? = some w ↔
      ∃ u r, k.rest = u ++ r ∧ (∀ c ∈ u, stops c = false) ∧ words (trim u) ∧
        (ways q (k.skip u.length) (slotTrail name k.position u trail)).head? = some w := by
  constructor
  · intro hw
    have hne : ways (slot name p q) k trail ≠ [] := by
      intro hnil
      simp [hnil] at hw
    obtain ⟨b, r, hk, hb, hne⟩ := hasWords_blanks.seq_ne_nil.mp hne
    rw [ways_group_seq, ne_eq, List.flatMap_eq_nil_iff] at hne
    simp only [Classical.not_forall] at hne
    obtain ⟨v, hv, hne⟩ := hne
    obtain ⟨x, r', hk', hx, rfl⟩ := (h.hasWords _ _ v).mp hv
    obtain ⟨b', s, hs, hb', hne⟩ := hasWords_blanks.seq_ne_nil.mp hne
    have hk'' : k.rest = (b ++ (x ++ b')) ++ s := by
      have hr : r = x ++ r' := by simpa [hk] using hk'
      have hs : r' = b' ++ s := by simpa [hk, hr] using hs
      rw [hk, hr, hs]; simp
    have after : ((k.skip b.length).skip x.length).skip b'.length =
        k.skip (b ++ (x ++ b')).length := by
      simp only [List.length_append, Cursor.skip_add]
    have trimmed : IsTrimmed (trimLeft x) :=
      ⟨head_trimLeft x, h.last _ (h.trimLeft x hx)⟩
    have leading : IsBlankText (b ++ leadingBlanks x) := fun c hc =>
      (List.mem_append.mp hc).elim (hb c) (isBlankText_leadingBlanks x c)
    have captured : trim (b ++ (x ++ b')) = trimLeft x := by
      have parts := leadingBlanks_append_trimLeft x
      have padded := trim_padded leading trimmed hb'
      rwa [List.append_assoc, ← List.append_assoc (leadingBlanks x), parts] at padded
    refine ⟨b ++ (x ++ b'), s, hk'', ?_, captured ▸ h.trimLeft x hx, ?_⟩
    · intro c hc
      simp only [List.mem_append] at hc
      rcases hc with hc | hc | hc
      · exact h.goesOnBlank c (hb c hc)
      · exact h.goesOn x hx c hc
      · exact h.goesOnBlank c (hb' c hc)
    · rw [← head_slot h name hk'' (captured ▸ h.trimLeft x hx), hw]
      exact fun hnil => hne (ways_eq_nil q _ _ (after ▸ hnil))
  · rintro ⟨u, r, hk, -, hu, hw⟩
    rw [head_slot h name hk hu (by intro hnil; simp [hnil] at hw), hw]

/-- A slot does not match before a character that it can neither read nor stop at. -/
theorem ways_slot_eq_nil (h : SlotRules p q words stops) (name : String) {c : Char}
    (hblank : isBlank c = false) (hword : ∀ u, words u → c ∉ u) (hstop : stops c = false)
    {k : Cursor} (hk : k.rest.head? = some c) (trail : Trail) : ways (slot name p q) k trail = [] := by
  cases hw : (ways (slot name p q) k trail).head? with
  | none => exact List.head?_eq_none_iff.mp hw
  | some w =>
    obtain ⟨u, r, hr, -, hu, hq⟩ := (head_slot_iff h name k trail w).mp hw
    obtain ⟨d, hd, stop⟩ := h.stop (k.skip u.length) (slotTrail name k.position u trail)
      (fun hnil => by simp [hnil] at hq)
    cases u with
    | nil =>
      obtain rfl : c = d := by simpa [hk] using hd
      simp [hstop] at stop
    | cons e u =>
      obtain rfl : e = c := by simpa [hr] using hk
      rcases isBlank_or_mem_trim (show e ∈ e :: u from List.mem_cons_self) with hc | hc
      · simp [hblank] at hc
      · exact absurd hc (hword _ hu)

end MediaRange.Pattern
