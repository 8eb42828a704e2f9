import MediaRange.Proofs.Stylesheet.Preludes

/-!
# What stays in a stylesheet

The scanner knows the comments and strings of a prelude, but a range in one of them is rewritten as
any other. `process_keeps_untouched` shows that every comment and string stays in its order that no
range reaches into, and `process_edits_comment` that others do not.
-/

namespace MediaRange

open StyleToken Stylesheet

/-- The texts stand in a text one after the other. -/
def InOrder : List (List Char) → List Char → Prop
  | [], _ => True
  | t :: ts, text => ∃ before after, text = before ++ (t ++ after) ∧ InOrder ts after

theorem InOrder.append_left {ts : List (List Char)} {v : List Char} (h : InOrder ts v)
    (u : List Char) : InOrder ts (u ++ v) := by
  cases ts with
  | nil => trivial
  | cons t ts =>
    obtain ⟨before, after, split, rest⟩ := h
    exact ⟨u ++ before, after, by rw [split, List.append_assoc], rest⟩

/-! ### Replaced ranges -/

/-- A text with its ranges marked, and the text with queries in their place. -/
inductive IsReplaced (settings : Settings) : List (Char × Bool) → List Char → Prop where
  | nil : IsReplaced settings [] []
  | same {c : Char} {text : List (Char × Bool)} {out : List Char}
    (h : IsReplaced settings text out) : IsReplaced settings ((c, false) :: text) (c :: out)
  | range {inside : List Char} {r : Reading} {text : List (Char × Bool)} {out : List Char}
    (hspells : Spells inside r) (h : IsReplaced settings text out) :
    IsReplaced settings ((Fragment.group inside).text.map (·, true) ++ text)
      (r.query settings ++ out)

namespace IsReplaced

variable {settings : Settings} {u v text : List (Char × Bool)} {out out' : List Char}

theorem append (hu : IsReplaced settings u out) (hv : IsReplaced settings v out') :
    IsReplaced settings (u ++ v) (out ++ out') := by
  induction hu with
  | nil => exact hv
  | same _ ih => exact .same ih
  | range hspells _ ih =>
    rw [List.append_assoc, List.append_assoc]
    exact .range hspells ih

theorem of_same (u : List Char) : IsReplaced settings (u.map (·, false)) u := by
  induction u with
  | nil => exact .nil
  | cons c u ih => exact .same ih

theorem copied (h : IsReplaced settings (u ++ v) out) (hu : ∀ a ∈ u, a.2 = false) :
    ∃ rest, out = u.map Prod.fst ++ rest ∧ IsReplaced settings v rest := by
  induction u generalizing out with
  | nil => exact ⟨out, rfl, h⟩
  | cons a u ih =>
    obtain ⟨ha, unmarked⟩ := List.forall_mem_cons.mp hu
    generalize whole : a :: u ++ v = text at h
    cases h with
    | nil => cases whole
    | @same c text out h =>
      obtain ⟨rfl, rfl⟩ := List.cons.inj whole
      obtain ⟨rest, rfl, hv⟩ := ih h unmarked
      exact ⟨rest, rfl, hv⟩
    | range hspells h =>
      obtain ⟨rfl, -⟩ := List.cons.inj whole
      cases ha

/-- A front may end inside a range, whose query comes in full before what follows. -/
theorem dropped (h : IsReplaced settings text out) (split : text = u ++ v) :
    ∃ inRange rest before after, v = inRange ++ rest ∧ (∀ a ∈ inRange, a.2 = true) ∧
      out = before ++ after ∧ IsReplaced settings rest after := by
  induction h generalizing u with
  | nil =>
    obtain ⟨-, rfl⟩ := List.append_eq_nil_iff.mp split.symm
    exact ⟨[], [], [], [], rfl, List.forall_mem_nil _, rfl, .nil⟩
  | @same c text out h ih =>
    cases u with
    | nil =>
      obtain rfl := split
      exact ⟨[], _, [], c :: out, rfl, List.forall_mem_nil _, rfl, .same h⟩
    | cons a u =>
      obtain ⟨-, split⟩ := List.cons.inj split
      obtain ⟨inRange, rest, before, after, hv, marked, rfl, hrest⟩ := ih split
      exact ⟨inRange, rest, c :: before, after, hv, marked, rfl, hrest⟩
  | @range inside r text out hspells h ih =>
    rcases List.append_eq_append_iff.mp split with ⟨u', rfl, split'⟩ | ⟨inRange, whole, hv⟩
    · obtain ⟨inRange, rest, before, after, hv, marked, rfl, hrest⟩ := ih split'
      exact ⟨inRange, rest, _ ++ before, after, hv, marked, (List.append_assoc ..).symm, hrest⟩
    · have marked : ∀ a ∈ inRange, a.2 = true := by
        intro a ha
        have inGroup : a ∈ (Fragment.group inside).text.map (·, true) := by
          rw [whole]
          exact List.mem_append_right _ ha
        obtain ⟨c, -, rfl⟩ := List.mem_map.mp inGroup
        rfl
      exact ⟨inRange, text, _, out, hv, marked, rfl, h⟩

end IsReplaced

/-! ### Comments and strings -/

/-- The text of a comment or a string. -/
def StyleToken.inert? {α : Type} : StyleToken α → Option (List α)
  | comment text | quoted text => some text
  | escape _ | single _ => none

/-- The text of a comment or a string that no range reaches into. -/
def StyleToken.untouched? (t : StyleToken (Char × Bool)) : Option (List Char) :=
  (t.inert?.filter fun text => text.all (!·.2)).map (·.map Prod.fst)

theorem StyleToken.untouched?_eq_some {t : StyleToken (Char × Bool)} {kept : List Char}
    (h : t.untouched? = some kept) : kept = t.text.map Prod.fst ∧ ∀ a ∈ t.text, a.2 = false := by
  have isText {text : List (Char × Bool)} (h : t.inert? = some text) : text = t.text := by
    cases t <;> cases h <;> rfl
  obtain ⟨text, hfilter, rfl⟩ := Option.map_eq_some_iff.mp h
  obtain ⟨hinert, unmarked⟩ := Option.filter_eq_some_iff.mp hfilter
  obtain rfl := isText hinert
  exact ⟨rfl, by simpa using unmarked⟩

/-- However a text is cut, its tokens outside of ranges stand in the new text. The cut may start
inside a range. -/
theorem IsReplaced.inOrder {settings : Settings} {text : List (Char × Bool)} {out : List Char}
    (h : IsReplaced settings text out) (ts : List (StyleToken (Char × Bool)))
    {w : List (Char × Bool)} (marked : ∀ a ∈ w, a.2 = true)
    (cut : ts.flatMap StyleToken.text = w ++ text) :
    InOrder (ts.filterMap untouched?) out := by
  induction ts generalizing w text out with
  | nil => trivial
  | cons t ts ih =>
    rw [List.flatMap_cons] at cut
    have place := List.append_eq_append_iff.mp cut
    cases ht : t.untouched? with
    | none =>
      rw [List.filterMap_cons_none ht]
      -- The token ends in the range that the cut started in, or reaches beyond it.
      rcases place with ⟨later, rfl, cut'⟩ | ⟨front, -, split⟩
      · exact ih h (fun a ha => marked a (List.mem_append_right _ ha)) cut'
      · obtain ⟨inRange, rest, before, after, cut, marked, rfl, hrest⟩ := h.dropped split
        exact (ih hrest marked cut).append_left before
    | some kept =>
      rw [List.filterMap_cons_some ht]
      obtain ⟨rfl, unmarked⟩ := untouched?_eq_some ht
      have apart {a : Char × Bool} (inToken : a ∈ t.text) (ha : a ∈ w) : False := by
        have outside := unmarked a inToken
        rw [marked a ha] at outside
        cases outside
      rcases place with ⟨later, rfl, cut'⟩ | ⟨front, whole, split⟩
      · have empty : t.text = [] := by
          rw [List.eq_nil_iff_forall_not_mem]
          intro a ha
          exact apart ha (List.mem_append_left _ ha)
        have rest := ih h (fun a ha => marked a (List.mem_append_right _ ha)) cut'
        exact ⟨[], out, by rw [empty]; rfl, rest⟩
      · have empty : w = [] := by
          rw [List.eq_nil_iff_forall_not_mem]
          intro a ha
          exact apart (whole ▸ List.mem_append_left _ ha) ha
        rw [empty, List.nil_append] at whole
        subst whole split
        obtain ⟨rest, rfl, hrest⟩ := h.copied unmarked
        exact ⟨[], rest, rfl, ih (w := []) hrest (List.forall_mem_nil _) rfl⟩

/-! ### Marked ranges -/

/-- The characters of a fragment, with whether they are in a range. -/
def Fragment.marked (f : Fragment) : List (Char × Bool) :=
  match f with
  | .plain c => [(c, false)]
  | .group inside => f.text.map (·, (reading? inside).isSome)

def Piece.marked : Piece → List (Char × Bool)
  | .verbatim c => [(c, false)]
  | .prelude _ raw => (preludeFragments raw).flatMap Fragment.marked

/-- The characters of a stylesheet, with whether they are in a range of a prelude. -/
def markRanges (css : List Char) : List (Char × Bool) :=
  (Scanner.pieces {} css).flatMap Piece.marked

theorem map_fst_marked (f : Fragment) : f.marked.map Prod.fst = f.text := by
  cases f with
  | plain c => rfl
  | group inside =>
    rw [Fragment.marked, List.map_map]
    exact List.map_id _

theorem map_fst_flatMap_marked (fs : List Fragment) :
    (fs.flatMap Fragment.marked).map Prod.fst = fs.flatMap Fragment.text := by
  rw [List.map_flatMap]
  exact congrArg (fs.flatMap ·) (funext map_fst_marked)

theorem map_fst_markRanges (css : List Char) : (markRanges css).map Prod.fst = css := by
  have piece (p : Piece) : p.marked.map Prod.fst = p.text := by
    cases p with
    | verbatim c => rfl
    | prelude name raw =>
      rw [Piece.marked, map_fst_flatMap_marked, preludeFragments_text]
      rfl
  rw [markRanges, List.map_flatMap, funext piece, Scanner.pieces_text]
  rfl

theorem isReplaced_fragments (settings : Settings) (fs : List Fragment) :
    IsReplaced settings (fs.flatMap Fragment.marked) (fs.flatMap (Fragment.rewritten settings)) := by
  induction fs with
  | nil => exact .nil
  | cons f fs ih =>
    refine IsReplaced.append ?_ ih
    cases f with
    | plain c => exact .same .nil
    | group inside =>
      rw [Fragment.marked]
      cases hr : reading? inside with
      | none =>
        rw [rewritten_of_unread hr]
        exact .of_same _
      | some r =>
        have hspells := reading?_eq_some_iff.mp hr
        rw [rewritten_of_spells hspells]
        have whole := IsReplaced.range hspells (@IsReplaced.nil settings)
        rwa [List.append_nil, List.append_nil] at whole

theorem isReplaced_markRanges (useCalc : Bool) (css : List Char) :
    IsReplaced ⟨none, useCalc⟩ (markRanges css)
      (process (plainEngine useCalc) css).value.css := by
  rw [css_process, markRanges, rewrittenText]
  induction Scanner.pieces {} css with
  | nil => exact .nil
  | cons p ps ih =>
    refine IsReplaced.append ?_ ih
    cases p with
    | verbatim c => exact .same .nil
    | prelude name raw => exact isReplaced_fragments _ _

/-! ### Cutting marked texts -/

namespace StyleToken

variable {α β : Type} (code : β → Nat) (f : α → β)

def map : StyleToken α → StyleToken β
  | comment text => comment (text.map f)
  | quoted text => quoted (text.map f)
  | escape text => escape (text.map f)
  | single a => single (f a)

theorem cutComment_map (text : List α) :
    cutComment code (text.map f) =
      ((cutComment (code ∘ f) text).1.map f, (cutComment (code ∘ f) text).2.map f) := by
  fun_induction cutComment (code ∘ f) text with
  | case1 => rfl
  | case2 a => rfl
  | case3 a b rest ends => exact if_pos ends
  | case4 a b rest goesOn ih =>
    rw [Function.comp_apply, Function.comp_apply] at goesOn
    rw [List.map_cons] at ih
    rw [List.map_cons, List.map_cons, cutComment, if_neg goesOn, ih]
    rfl

theorem cutQuoted_map (quote : α) (text : List α) :
    cutQuoted code (f quote) (text.map f) =
      ((cutQuoted (code ∘ f) quote text).1.map f, (cutQuoted (code ∘ f) quote text).2.map f) := by
  fun_induction cutQuoted (code ∘ f) quote text with
  | case1 => rfl
  | case2 a newline => exact if_pos newline
  | case3 a other => exact if_neg other
  | case4 a b rest backslash ih =>
    rw [Function.comp_apply] at backslash
    rw [List.map_cons, List.map_cons, cutQuoted, if_pos backslash, ih]
    rfl
  | case5 a b rest notBackslash newline =>
    rw [Function.comp_apply] at notBackslash newline
    rw [List.map_cons, List.map_cons, cutQuoted, if_neg notBackslash, if_pos newline]
    rfl
  | case6 a b rest notBackslash notNewline closes =>
    rw [Function.comp_apply] at notBackslash notNewline
    rw [Function.comp_apply, Function.comp_apply] at closes
    rw [List.map_cons, List.map_cons, cutQuoted, if_neg notBackslash, if_neg notNewline,
      if_pos closes]
    rfl
  | case7 a b rest notBackslash notNewline notQuote ih =>
    rw [Function.comp_apply] at notBackslash notNewline
    rw [Function.comp_apply, Function.comp_apply] at notQuote
    rw [List.map_cons] at ih
    rw [List.map_cons, List.map_cons, cutQuoted, if_neg notBackslash, if_neg notNewline,
      if_neg notQuote, ih]
    rfl

theorem cutFirst_map (a : α) (rest : List α) :
    cutFirst code (f a) (rest.map f) =
      ((cutFirst (code ∘ f) a rest).1.map f, (cutFirst (code ∘ f) a rest).2.map f) := by
  have next : (rest.map f).head?.map code = rest.head?.map (code ∘ f) := by
    rw [List.head?_map, Option.map_map]
  unfold cutFirst
  rw [next, ← List.map_drop, ← List.map_take, cutComment_map, cutQuoted_map]
  simp only [Function.comp_apply, apply_ite Prod.fst, apply_ite Prod.snd, apply_ite (List.map f),
    apply_ite (StyleToken.map f)]
  split
  · simp [map]
  · split
    · simp [map]
    · split
      · simp [map]
      · rfl

/-- Only the codes of a text tell how it is cut. -/
theorem tokens_map (text : List α) :
    tokens code (text.map f) = (tokens (code ∘ f) text).map (map f) := by
  fun_induction tokens (code ∘ f) text with
  | case1 => simp [tokens]
  | case2 a rest ih => rw [List.map_cons, tokens, cutFirst_map, ih, List.map_cons]

end StyleToken

/-! ### The whole stylesheet -/

/-- Without custom values a stylesheet changes in the ranges of its preludes only. The comments and
strings that no range reaches into stay, in their order. -/
theorem process_keeps_untouched {useCalc : Bool} {engine : Engine}
    (built : Engine.build ⟨none, useCalc⟩ = .ok engine) (css : List Char) :
    let out := (process engine css).value.css
    let ts := tokens (fun a : Char × Bool => a.1.toNat) (markRanges css)
    ts.map (StyleToken.map Prod.fst) = tokens Char.toNat css ∧
      IsReplaced engine.settings (markRanges css) out ∧ InOrder (ts.filterMap untouched?) out := by
  obtain rfl := eq_plainEngine built
  have replaced := isReplaced_markRanges useCalc css
  refine ⟨?_, replaced, ?_⟩
  · rw [← map_fst_markRanges css, tokens_map, map_fst_markRanges]
    rfl
  · exact replaced.inOrder (w := []) _ (List.forall_mem_nil _) (tokens_text _ _)

theorem process_keeps_untouched_comment :
    let css := "@media /* ( */ (width > 1px) { } 'a'".toList
    Engine.build ⟨none, false⟩ = .ok (plainEngine false) ∧
      InOrder ["/* ( */".toList, "'a'".toList] (process (plainEngine false) css).value.css := by
  intro css
  have kept : (tokens (fun a : Char × Bool => a.1.toNat) (markRanges css)).filterMap untouched? =
      ["/* ( */".toList, "'a'".toList] := by decide +kernel
  have whole := process_keeps_untouched (build_plain false) css
  rw [← kept]
  exact ⟨build_plain false, whole.2.2⟩

/-- A range in a comment of a prelude is rewritten. -/
theorem process_edits_comment :
    let css := "@media /* (width > 1px) */ (width > 2px) { }".toList
    Engine.build ⟨none, false⟩ = .ok (plainEngine false) ∧
      comment "/* (width > 1px) */".toList ∈ tokens Char.toNat css ∧
      ¬"/* (width > 1px) */".toList <:+: (process (plainEngine false) css).value.css := by
  intro css
  refine ⟨build_plain false, by decide +kernel, ?_⟩
  rw [css_process]
  have noSign : '>' ∉ rewrittenText ⟨none, false⟩ (Scanner.pieces {} css) := by decide +kernel
  intro stays
  have sign : '>' ∈ "/* (width > 1px) */".toList := by decide
  exact noSign (stays.subset sign)

end MediaRange
