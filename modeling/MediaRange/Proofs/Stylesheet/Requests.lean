import MediaRange.Proofs.Stylesheet.MediaRules
import MediaRange.Proofs.Stylesheet.Scanning
import MediaRange.Stylesheet.Basic

/-!
# What the engine is asked

The scanner skips comments, strings and escapes in one way outside of preludes and in another way
inside. `filterMap_rulesAfter` shows that it still finds the media rules that are among the tokens.
By `log_process`, `changes_process` and `process_congr` the engine is asked about the preludes of
these rules, in their order, and about nothing else.
-/

namespace MediaRange

open Scanner StyleToken

/-! ### The scanner on tokens -/

namespace Lexing

/-- The tokens start where the scanner sees tokens start. -/
def Follows (lexing : Lexing) (ts : List (StyleToken Char)) : Prop :=
  lexing.marked (ts.flatMap text) = ts.flatMap marks

theorem follows_tokens (css : List Char) : plain.Follows (tokens Char.toNat css) := by
  rw [Follows, tokens_text, marked_plain]

theorem length_marked (lexing : Lexing) (u : List Char) : (lexing.marked u).length = u.length := by
  induction u generalizing lexing with
  | nil => rfl
  | cons c u ih => rw [marked, List.length_cons, ih, List.length_cons]

theorem length_marks {α : Type} (t : StyleToken α) : t.marks.length = t.text.length := by
  unfold marks
  cases t.text with
  | nil => rfl
  | cons a rest => simp

theorem Follows.append {lexing : Lexing} {us ts : List (StyleToken Char)}
    (h : lexing.Follows (us ++ ts)) :
    lexing.Follows us ∧ (lexing.run (us.flatMap text)).Follows ts := by
  rw [Follows, List.flatMap_append, List.flatMap_append, marked_append] at h
  refine List.append_inj h ?_
  rw [length_marked, List.length_flatMap, List.length_flatMap]
  simp only [length_marks]

theorem Follows.cons {lexing : Lexing} {t : StyleToken Char} {ts : List (StyleToken Char)}
    (h : lexing.Follows (t :: ts)) :
    lexing.marked t.text = t.marks ∧ (lexing.run t.text).Follows ts := by
  obtain ⟨first, later⟩ := Follows.append (show lexing.Follows ([t] ++ ts) from h)
  rw [Follows, List.flatMap_singleton, List.flatMap_singleton] at first
  rw [List.flatMap_singleton] at later
  exact ⟨first, later⟩

/-- The scanner takes the first character of a token for itself. -/
theorem Follows.isBare {lexing : Lexing} {c : Char} {ts : List (StyleToken Char)}
    (h : lexing.Follows (single c :: ts)) (notNewline : c ≠ '\n') : lexing.isBare c = true := by
  have first : [(c, lexing.starts c)] = [(c, true)] := h.cons.1
  rw [isBare_eq_starts lexing notNewline]
  simpa using first

/-- Where no token starts with an end of a prelude, the prelude goes on. -/
theorem cutPrelude_of_marked {lexing : Lexing} {u : List Char}
    (h : ∀ m ∈ lexing.marked u, m.2 = true → endsPrelude m.1 = false) :
    lexing.cutPrelude u = (u, []) := by
  induction u generalizing lexing with
  | nil => rfl
  | cons c u ih =>
    obtain ⟨first, later⟩ := List.forall_mem_cons.mp h
    have goesOn : ¬(lexing.isBare c && endsPrelude c) = true := by
      intro ends
      obtain ⟨bare, ends⟩ := Bool.and_eq_true_iff.mp ends
      have notNewline : c ≠ '\n' := by rintro rfl; cases ends
      rw [isBare_eq_starts lexing notNewline] at bare
      rw [first bare] at ends
      cases ends
    rw [cutPrelude_goesOn u goesOn, ih later]

theorem Follows.cutPrelude {lexing : Lexing} {ts : List (StyleToken Char)} (h : lexing.Follows ts)
    (cut : ∀ t ∈ ts, t.IsCut Char.toNat) :
    lexing.cutPrelude (ts.flatMap text) =
      ((ts.takeWhile (!isSingle Char.toNat endsPreludeCode ·)).flatMap text,
        (ts.dropWhile (!isSingle Char.toNat endsPreludeCode ·)).flatMap text) := by
  induction ts generalizing lexing with
  | nil => rfl
  | cons t ts ih =>
    obtain ⟨cutFirst, cutLater⟩ := List.forall_mem_cons.mp cut
    by_cases ends : t.isSingle Char.toNat endsPreludeCode = true
    · rw [List.takeWhile_cons_of_neg (by simp [ends]), List.dropWhile_cons_of_neg (by simp [ends])]
      cases t with
      | single c =>
        have ends : endsPrelude c = true := by rw [← endsPreludeCode_toNat]; exact ends
        have notNewline : c ≠ '\n' := by rintro rfl; cases ends
        exact cutPrelude_ends _ (by rw [h.isBare notNewline, ends]; rfl)
      | comment text | quoted text | escape text => cases ends
    · rw [Bool.not_eq_true] at ends
      have quiet := forall_mem_marks cutFirst (fun _ => not_endsPreludeCode_of_opensTokenCode) ends
      obtain ⟨first, later⟩ := h.cons
      simp only [← first, endsPreludeCode_toNat] at quiet
      rw [List.takeWhile_cons_of_pos (by simp [ends]), List.dropWhile_cons_of_pos (by simp [ends])]
      exact cutPrelude_append_iff.mpr ⟨cutPrelude_of_marked quiet, ih later cutLater⟩

theorem Follows.dropWhile {lexing : Lexing} {ts : List (StyleToken Char)}
    (h : lexing.Follows ts) (p : StyleToken Char → Bool) :
    (lexing.run ((ts.takeWhile p).flatMap text)).Follows (ts.dropWhile p) := by
  rw [← List.takeWhile_append_dropWhile (p := p) (l := ts)] at h
  exact h.append.2

end Lexing

namespace Scanner

/-- Where no token starts with an `@`, the scanner stays outside of rules. -/
theorem pieces_of_marked {lexing : Lexing} {u : List Char}
    (h : ∀ m ∈ lexing.marked u, m.2 = true → m.1 ≠ '@') (before : Option Char) (v : List Char) :
    pieces ⟨.outside, lexing, before⟩ (u ++ v) =
      u.map .verbatim ++ pieces ⟨.outside, lexing.run u, u.getLast?.or before⟩ v := by
  induction u generalizing lexing before with
  | nil => rfl
  | cons c u ih =>
    obtain ⟨first, later⟩ := List.forall_mem_cons.mp h
    have here : step ⟨.outside, lexing, before⟩ c =
        ([.verbatim c], ⟨.outside, lexing.next c, some c⟩) := by
      show outsideStep lexing before c = _
      by_cases isAt : c = '@'
      · subst isAt
        have notBare : lexing.isBare '@' = false := by
          rw [Lexing.isBare_eq_starts lexing (by decide), ← Bool.not_eq_true]
          exact fun starts => first starts rfl
        rw [outsideStep, notBare]
        rfl
      · exact outsideStep_of_ne_at lexing before isAt
    have last : (c :: u).getLast?.or before = u.getLast?.or (some c) := by
      cases u with
      | nil => rfl
      | cons d u => simp [List.getLast?_cons]
    rw [List.cons_append, pieces_of_step here, ih later, last]
    rfl

theorem pieces_name {u : List Char} (h : ∀ c ∈ u, isNameCharacter c = true) (read : List Char)
    (before : Option Char) (v : List Char) :
    ∃ last, pieces ⟨.name read, .plain, before⟩ (u ++ v) =
      u.map .verbatim ++ pieces ⟨.name (u.reverse ++ read), .plain, last⟩ v := by
  induction u generalizing read before with
  | nil => exact ⟨before, rfl⟩
  | cons c u ih =>
    obtain ⟨isName, later⟩ := List.forall_mem_cons.mp h
    obtain ⟨last, rest⟩ := ih later (c :: read) (some c)
    refine ⟨last, ?_⟩
    rw [List.cons_append, pieces_of_step (step_name isName read before), rest, List.reverse_cons,
      List.append_assoc]
    rfl

theorem pieces_otherName {read text : List Char}
    (h : isMediaRule (read.reverse ++ text.takeWhile isNameCharacter) = false)
    (before : Option Char) :
    pieces ⟨.name read, .plain, before⟩ text = pieces ⟨.outside, .plain, before⟩ text := by
  induction text generalizing read before with
  | nil => rfl
  | cons c text ih =>
    by_cases isName : isNameCharacter c = true
    · have outside : step ⟨.outside, .plain, before⟩ c = _ :=
        outsideStep_of_ne_at .plain before (ne_at_of_isNameCharacter isName)
      rw [next_of_isNameCharacter isName] at outside
      rw [List.takeWhile_cons_of_pos isName] at h
      rw [pieces_of_step (step_name isName read before), ih (by simpa using h)]
      exact (pieces_of_step outside text).symm
    · rw [List.takeWhile_cons_of_neg isName, List.append_nil] at h
      rw [Bool.not_eq_true] at isName
      rw [pieces, pieces, step_other h isName]
      rfl

end Scanner

/-! ### The same rules -/

/-- The rules of a list of pieces after the text before them. -/
def rulesAfter (front : List Char) : List Piece → List (MediaRule Char)
  | [] => []
  | .verbatim c :: ps => rulesAfter (front ++ [c]) ps
  | .prelude name raw :: ps => ⟨front, name, raw⟩ :: rulesAfter (front ++ raw) ps

theorem rulesAfter_verbatim (front u : List Char) (ps : List Piece) :
    rulesAfter front (u.map .verbatim ++ ps) = rulesAfter (front ++ u) ps := by
  induction u generalizing front with
  | nil => rw [List.append_nil]; rfl
  | cons c u ih =>
    show rulesAfter (front ++ [c]) (u.map .verbatim ++ ps) = _
    rw [ih, List.append_assoc]
    rfl

theorem filterMap_prelude {β : Type} (f : MediaRule Char → Option β) (front name raw : List Char)
    (ps : List Piece) :
    (rulesAfter front (.prelude name raw :: ps)).filterMap f =
      (f ⟨front, name, raw⟩).toList ++ (rulesAfter (front ++ raw) ps).filterMap f := by
  rw [rulesAfter, List.filterMap_cons]
  cases f ⟨front, name, raw⟩ <;> rfl

theorem takeWhile_isNameCharacter {ts : List (StyleToken Char)}
    (cut : ∀ t ∈ ts, t.IsCut Char.toNat) :
    (ts.flatMap text).takeWhile isNameCharacter =
      (ts.takeWhile (isSingle Char.toNat isNameCode)).flatMap text := by
  refine takeWhile_flatMap ?_ ?_
  · intro t ht isName c hc
    cases t with
    | single d =>
      obtain rfl := List.mem_singleton.mp hc
      rw [← isNameCode_toNat]
      exact isName
    | comment text | quoted text | escape text => cases isName
  · intro t ht notName
    obtain ⟨c, rest, htext, same⟩ :=
      exists_text (cut t ht) (fun _ => not_isNameCode_of_opensTokenCode)
    exact ⟨c, rest, htext, by rw [← isNameCode_toNat, same, notName]⟩

theorem Lexing.next_at {lexing : Lexing} (bare : lexing.isBare '@' = true) :
    lexing.next '@' = .plain := by
  cases lexing with
  | plain => rfl
  | slash => rfl
  | _ => cases bare

theorem Lexing.run_name {u : List Char} (h : ∀ c ∈ u, isNameCharacter c = true) :
    plain.run u = plain := by
  induction u with
  | nil => rfl
  | cons c u ih =>
    obtain ⟨isName, later⟩ := List.forall_mem_cons.mp h
    show (plain.next c).run u = plain
    rw [next_of_isNameCharacter isName, ih later]

namespace Scanner

theorem step_at {lexing : Lexing} (bare : lexing.isBare '@' = true) {before : Option Char}
    (opens : opensRule before = true) :
    step ⟨.outside, lexing, before⟩ '@' = ([.verbatim '@'], ⟨.name [], .plain, some '@'⟩) := by
  show outsideStep lexing before '@' = _
  rw [outsideStep, bare, opens]
  rfl

theorem eq_single_at {t : StyleToken Char} (h : t.isSingle Char.toNat (· = '@'.toNat) = true) :
    t = single '@' := by
  cases t with
  | single c => rw [Char.toNat_inj.mp (of_decide_eq_true h)]
  | comment text | quoted text | escape text => cases h

/-- Any other token stays, and the scanner is outside of rules after it. -/
theorem pieces_token {lexing : Lexing} {before : Option Char} {t : StyleToken Char}
    {ts : List (StyleToken Char)} (cut : ∀ u ∈ t :: ts, u.IsCut Char.toNat)
    (follows : lexing.Follows (t :: ts))
    (noRule : (t.isSingle Char.toNat (· = '@'.toNat) && opensRule before &&
      isMediaRule ((ts.flatMap text).takeWhile isNameCharacter)) = false) :
    pieces ⟨.outside, lexing, before⟩ (t.text ++ ts.flatMap text) =
      t.text.map .verbatim ++
        pieces ⟨.outside, lexing.run t.text, t.text.getLast?.or before⟩ (ts.flatMap text) := by
  by_cases isAt : t.isSingle Char.toNat (· = '@'.toNat) = true
  · obtain rfl := eq_single_at isAt
    have bare := follows.isBare (by decide)
    show pieces ⟨.outside, lexing, before⟩ ('@' :: ts.flatMap text) =
      [.verbatim '@'] ++ pieces ⟨.outside, lexing.next '@', some '@'⟩ (ts.flatMap text)
    by_cases opens : opensRule before = true
    · have otherName : isMediaRule ([].reverse ++ (ts.flatMap text).takeWhile isNameCharacter) =
          false := by
        rw [isAt, opens] at noRule
        exact noRule
      rw [pieces_of_step (step_at bare opens), pieces_otherName otherName, Lexing.next_at bare]
    · have stays : step ⟨.outside, lexing, before⟩ '@' =
          ([.verbatim '@'], ⟨.outside, lexing.next '@', some '@'⟩) := by
        show outsideStep lexing before '@' = _
        rw [outsideStep, eq_false_of_ne_true opens, Bool.and_false]
        rfl
      exact pieces_of_step stays _
  · have quiet := forall_mem_marks (cut t List.mem_cons_self) (fun _ => ne_at_of_opensTokenCode)
      (eq_false_of_ne_true isAt)
    rw [← follows.cons.1] at quiet
    refine pieces_of_marked ?_ before _
    rintro m hm first same
    have ne := quiet m hm first
    rw [same] at ne
    cases ne

end Scanner

/-- The tokens of a name are single characters, and what follows it is no part of it. -/
theorem Lexing.Follows.name {ts : List (StyleToken Char)} (follows : Lexing.plain.Follows ts)
    (cut : ∀ t ∈ ts, t.IsCut Char.toNat) :
    let name := (ts.takeWhile (isSingle Char.toNat isNameCode)).flatMap text
    let body := ts.dropWhile (isSingle Char.toNat isNameCode)
    ts.flatMap text = name ++ body.flatMap text ∧ (∀ c ∈ name, isNameCharacter c = true) ∧
      (∀ c ∈ (body.flatMap text).head?, isNameCharacter c = false) ∧ Lexing.plain.Follows body := by
  intro name body
  have parts : ts.takeWhile (isSingle Char.toNat isNameCode) ++ body = ts :=
    List.takeWhile_append_dropWhile
  have whole : ts.flatMap text = name ++ body.flatMap text := by
    rw [← List.flatMap_append, parts]
  have sameName : (ts.flatMap text).takeWhile isNameCharacter = name :=
    takeWhile_isNameCharacter cut
  have isName : ∀ c ∈ name, isNameCharacter c = true := by
    rw [← sameName]
    exact List.all_eq_true.mp List.all_takeWhile
  have rest : body.flatMap text = (ts.flatMap text).dropWhile isNameCharacter := by
    rw [← List.append_cancel_left_eq name, ← whole, ← sameName, List.takeWhile_append_dropWhile]
  refine ⟨whole, isName, ?_, ?_⟩
  · rw [rest]
    intro c hc
    have first := List.head?_dropWhile_not isNameCharacter (ts.flatMap text)
    rw [hc] at first
    simpa using first
  · rw [← parts] at follows
    have later := follows.append.2
    rwa [Lexing.run_name isName] at later

section

variable {lexing : Lexing} (bare : lexing.isBare '@' = true) {before : Option Char}
  (opens : opensRule before = true) {name : List Char}
  (isName : ∀ c ∈ name, isNameCharacter c = true)
include bare opens isName

theorem pieces_at (body : List Char) :
    ∃ last, pieces ⟨.outside, lexing, before⟩ ('@' :: (name ++ body)) =
      ('@' :: name).map .verbatim ++ pieces ⟨.name (name.reverse ++ []), .plain, last⟩ body := by
  obtain ⟨last, afterName⟩ := pieces_name isName [] (some '@') body
  refine ⟨last, ?_⟩
  rw [pieces_of_step (step_at bare opens), afterName]
  rfl

theorem pieces_rule (media : isMediaRule name = true) {c : Char} (notName : isNameCharacter c = false)
    {body raw rest : List Char} (hcut : Lexing.plain.cutPrelude (c :: body) = (raw, rest))
    (other : Option Char) :
    pieces ⟨.outside, lexing, before⟩ ('@' :: (name ++ c :: body)) =
      ('@' :: name).map .verbatim ++
        .prelude name raw :: pieces ⟨.outside, Lexing.plain.run raw, other⟩ rest := by
  obtain ⟨last, start⟩ := pieces_at bare opens isName (c :: body)
  have isMedia : isMediaRule (name.reverse ++ []).reverse = true := by simpa using media
  have readBack : (name.reverse ++ []).reverse = name := by simp
  rw [start, pieces_media isMedia notName, pieces_prelude _ _ _ _ other, hcut, readBack]
  rfl

end

section

variable {β : Type} {f : MediaRule Char → Option β}

/-- A media rule is an `@`, a name and, unless the text ends here, a prelude. -/
theorem filterMap_rule (blank : ∀ lead name, f ⟨lead, name, []⟩ = none) {lexing : Lexing}
    (bare : lexing.isBare '@' = true) {before : Option Char} (opens : opensRule before = true)
    {name body raw rest : List Char} (isName : ∀ c ∈ name, isNameCharacter c = true)
    (media : isMediaRule name = true) (notName : ∀ c ∈ body.head?, isNameCharacter c = false)
    (hcut : Lexing.plain.cutPrelude body = (raw, rest)) (front : List Char) (other : Option Char) :
    let lead := front ++ '@' :: name
    (rulesAfter front (pieces ⟨.outside, lexing, before⟩ ('@' :: (name ++ body)))).filterMap f =
      (f ⟨lead, name, raw⟩).toList ++
        (rulesAfter (lead ++ raw) (pieces ⟨.outside, Lexing.plain.run raw, other⟩ rest)).filterMap
          f := by
  intro lead
  cases body with
  | nil =>
    obtain ⟨last, start⟩ := pieces_at bare opens isName []
    obtain ⟨rfl, rfl⟩ := Prod.mk.inj hcut
    rw [start, rulesAfter_verbatim, blank]
    rfl
  | cons c body =>
    rw [pieces_rule bare opens isName media (notName c rfl) hcut other, rulesAfter_verbatim,
      filterMap_prelude]

/-- The scanner finds the media rules, up to those that have nothing after their name. -/
theorem filterMap_rulesAfter (blank : ∀ lead name, f ⟨lead, name, []⟩ = none) (front : List Char)
    {ts : List (StyleToken Char)} (cut : ∀ t ∈ ts, t.IsCut Char.toNat) {lexing : Lexing}
    (follows : lexing.Follows ts) :
    (rulesAfter front (pieces ⟨.outside, lexing, front.getLast?⟩ (ts.flatMap text))).filterMap f =
      (mediaRules Char.toNat front ts).filterMap f := by
  fun_induction mediaRules Char.toNat front ts generalizing lexing with
  | case1 => rfl
  | case2 front t ts name body opens lead raw =>
    rename_i ih
    rw [opensRuleCode_toNat, isMediaName_toNat, Bool.and_eq_true, Bool.and_eq_true] at opens
    obtain ⟨⟨isAt, opens⟩, media⟩ := opens
    obtain ⟨-, cutLater⟩ := List.forall_mem_cons.mp cut
    obtain rfl := eq_single_at isAt
    have bare := follows.isBare (by decide)
    have later : (lexing.next '@').Follows ts := follows.cons.2
    rw [Lexing.next_at bare] at later
    obtain ⟨whole, isName, notName, followsBody⟩ := later.name cutLater
    have cutBody : ∀ t ∈ body, t.IsCut Char.toNat :=
      fun t ht => cutLater t (List.dropWhile_subset _ ht)
    have rule := filterMap_rule blank bare opens isName media notName
      (followsBody.cutPrelude cutBody) front (lead ++ raw).getLast?
    have rest := ih (fun t ht => cutBody t (List.dropWhile_subset _ ht)) (followsBody.dropWhile _)
    have lead_eq : front ++ '@' :: name = lead := by simp [lead, text]
    rw [lead_eq] at rule
    rw [List.flatMap_cons, whole]
    refine rule.trans ?_
    rw [rest, List.filterMap_cons]
    cases f ⟨lead, name, raw⟩ <;> rfl
  | case3 front t ts name noRule ih =>
    obtain ⟨-, cutLater⟩ := List.forall_mem_cons.mp cut
    have sameName : name = (ts.flatMap text).takeWhile isNameCharacter :=
      (takeWhile_isNameCharacter cutLater).symm
    rw [opensRuleCode_toNat, isMediaName_toNat, sameName] at noRule
    have kept := pieces_token cut follows (eq_false_of_ne_true noRule)
    rw [← List.getLast?_append] at kept
    rw [List.flatMap_cons, kept, rulesAfter_verbatim, ih cutLater follows.cons.2]

end

/-! ### Requests to the engine -/

def MediaRule.request? (r : MediaRule Char) : Option Rule :=
  let params := Unicode.trim r.prelude
  if params.isEmpty then none else some ⟨r.name, params⟩

def MediaRule.change? (engine : Engine) (r : MediaRule Char) : Option RuleChange :=
  r.request?.bind fun rule =>
    match (engine.rewriteRule rule).value with
    | .rewritten after rewrites =>
      some ⟨1 + Stylesheet.newlines r.lead, rule.name, rule.params, after, rewrites⟩
    | _ => none

namespace Stylesheet

section

variable (engine : Engine) (r : MediaRule Char) (line : Nat)

theorem log_processPiece :
    (processPiece engine line (.prelude r.name r.prelude)).log =
      r.request?.toList.flatMap (engine.rewriteRule · |>.log) := by
  unfold processPiece MediaRule.request?
  dsimp only
  by_cases blank : (Unicode.trim r.prelude).isEmpty = true
  · rw [if_pos blank, if_pos blank]
    rfl
  · rw [if_neg blank, if_neg blank, Option.toList_some, List.flatMap_singleton]
    cases (engine.rewriteRule ⟨r.name, Unicode.trim r.prelude⟩).value <;> rfl

theorem changes_processPiece :
    (processPiece engine (1 + newlines r.lead) (.prelude r.name r.prelude)).value.changes =
      (r.change? engine).toList := by
  unfold processPiece MediaRule.change? MediaRule.request?
  dsimp only
  by_cases blank : (Unicode.trim r.prelude).isEmpty = true
  · rw [if_pos blank, if_pos blank]
    rfl
  · rw [if_neg blank, if_neg blank, Option.bind_some]
    cases (engine.rewriteRule ⟨r.name, Unicode.trim r.prelude⟩).value <;> rfl

theorem processPiece_congr {engine other : Engine} {r : MediaRule Char}
    (h : ∀ rule ∈ r.request?, other.rewriteRule rule = engine.rewriteRule rule) :
    processPiece other line (.prelude r.name r.prelude) =
      processPiece engine line (.prelude r.name r.prelude) := by
  unfold processPiece
  unfold MediaRule.request? at h
  dsimp only at h ⊢
  by_cases blank : (Unicode.trim r.prelude).isEmpty = true
  · rw [if_pos blank, if_pos blank]
  · rw [if_neg blank] at h
    rw [if_neg blank, if_neg blank, h _ rfl]

end

section

variable (engine : Engine) (front : List Char) (ps : List Piece)

theorem log_processPieces (line : Nat) :
    (processPieces engine line ps).log =
      ((rulesAfter front ps).filterMap MediaRule.request?).flatMap
        (engine.rewriteRule · |>.log) := by
  induction ps generalizing front line with
  | nil => rfl
  | cons p ps ih =>
    rw [processPieces]
    cases p with
    | verbatim c => exact ih (front ++ [c]) _
    | prelude name raw =>
      rw [filterMap_prelude, List.flatMap_append, ← log_processPiece, ← ih]

theorem changes_processPieces :
    (processPieces engine (1 + newlines front) ps).value.changes =
      (rulesAfter front ps).filterMap (MediaRule.change? engine) := by
  induction ps generalizing front with
  | nil => rfl
  | cons p ps ih =>
    have line : 1 + newlines front + newlines p.text = 1 + newlines (front ++ p.text) := by
      rw [newlines, newlines, newlines, List.count_append, Nat.add_assoc]
    rw [processPieces, line]
    cases p with
    | verbatim c => exact ih (front ++ [c])
    | prelude name raw =>
      rw [filterMap_prelude, ← changes_processPiece, ← ih]
      rfl

theorem processPieces_congr {engine other : Engine} {ps : List Piece} (line : Nat)
    (h : ∀ rule ∈ (rulesAfter front ps).filterMap MediaRule.request?,
      other.rewriteRule rule = engine.rewriteRule rule) :
    processPieces other line ps = processPieces engine line ps := by
  induction ps generalizing front line with
  | nil => rfl
  | cons p ps ih =>
    rw [processPieces, processPieces]
    cases p with
    | verbatim c =>
      rw [ih (front ++ [c]) _ h]
      rfl
    | prelude name raw =>
      rw [filterMap_prelude] at h
      have here : ∀ rule ∈ (MediaRule.mk front name raw).request?,
          other.rewriteRule rule = engine.rewriteRule rule :=
        fun rule hr => h rule (List.mem_append_left _ (Option.mem_toList.mpr hr))
      have later := fun rule hr => h rule (List.mem_append_right _ hr)
      rw [ih (front ++ raw) _ later, processPiece_congr line here]

end

/-- The rules that the engine is asked to rewrite: those with a prelude that is not blank. -/
def requests (css : List Char) : List Rule :=
  (mediaRules Char.toNat [] (tokens Char.toNat css)).filterMap MediaRule.request?

theorem filterMap_rules_pieces {β : Type} {f : MediaRule Char → Option β}
    (blank : ∀ lead name, f ⟨lead, name, []⟩ = none) (css : List Char) :
    (rulesAfter [] (pieces {} css)).filterMap f =
      (mediaRules Char.toNat [] (tokens Char.toNat css)).filterMap f := by
  have same := filterMap_rulesAfter blank [] (isCut_tokens Char.toNat css)
    (Lexing.follows_tokens css)
  rwa [tokens_text] at same

section

variable (engine : Engine) (css : List Char)

theorem log_process :
    (process engine css).log = (requests css).flatMap (engine.rewriteRule · |>.log) := by
  rw [process, log_processPieces engine [], filterMap_rules_pieces fun _ _ => rfl]
  rfl

theorem changes_process :
    (process engine css).value.changes =
      (mediaRules Char.toNat [] (tokens Char.toNat css)).filterMap (MediaRule.change? engine) := by
  rw [← filterMap_rules_pieces fun _ _ => rfl]
  exact changes_processPieces engine [] _

theorem process_congr {engine other : Engine} {css : List Char}
    (h : ∀ rule ∈ requests css, other.rewriteRule rule = engine.rewriteRule rule) :
    process other css = process engine css := by
  rw [requests, ← filterMap_rules_pieces fun _ _ => rfl] at h
  exact processPieces_congr [] 1 h

end

end Stylesheet

end MediaRange
