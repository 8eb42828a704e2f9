import MediaRange.Proofs.Number.Digits
import MediaRange.Proofs.Stylesheet.ByteSlices

/-!
# The scan of the bytes never fails

Every position that the scan comes to is the end of a token, and media rules start and end where
characters do. `scan_eq_process` shows that it has a result for every stylesheet, which is the one of
the scanner of characters.
-/

namespace MediaRange.ByteScan

open StyleToken Stylesheet Scanner

/-! ### Tokens of the rest -/

/-- The tokens are those of their text. -/
def AreTokens (ts : List (StyleToken Char)) : Prop :=
  tokens Char.toNat (ts.flatMap StyleToken.text) = ts

theorem areTokens_tokens (css : List Char) : AreTokens (tokens Char.toNat css) := by
  rw [AreTokens, tokens_text]

namespace AreTokens

variable {t : StyleToken Char} {us ts : List (StyleToken Char)}

theorem tail (h : AreTokens (t :: ts)) : AreTokens ts := by
  unfold AreTokens at h ⊢
  cases whole : (t :: ts).flatMap StyleToken.text with
  | nil =>
    rw [whole, tokens] at h
    cases h
  | cons a rest =>
    rw [whole, tokens] at h
    rw [← (List.cons.inj h).2, tokens_text]

theorem right (h : AreTokens (us ++ ts)) : AreTokens ts := by
  induction us with
  | nil => exact h
  | cons u us ih => exact ih h.tail

theorem dropWhile (h : AreTokens ts) (p : StyleToken Char → Bool) : AreTokens (ts.dropWhile p) := by
  rw [← List.takeWhile_append_dropWhile (p := p) (l := ts)] at h
  exact h.right

theorem isCut (h : AreTokens ts) : ∀ t ∈ ts, t.IsCut Char.toNat := by
  unfold AreTokens at h
  rw [← h]
  exact isCut_tokens Char.toNat _

theorem inBytes (h : AreTokens ts) :
    tokens UInt8.toNat (utf8 (ts.flatMap StyleToken.text)) = ts.flatMap StyleToken.inBytes := by
  unfold AreTokens at h
  rw [tokens_utf8, h]

end AreTokens

section

variable {css lead : List Char} {ts : List (StyleToken Char)}

/-- The token that ends a prelude, and what follows it. -/
theorem split_prelude (whole : css = lead ++ ts.flatMap StyleToken.text) :
    css = lead ++ ((ts.takeWhile (!isSingle Char.toNat endsPreludeCode ·)).flatMap StyleToken.text ++
      (ts.dropWhile (!isSingle Char.toNat endsPreludeCode ·)).flatMap StyleToken.text) := by
  rw [← List.flatMap_append, List.takeWhile_append_dropWhile, whole]

theorem preludeEnd_utf8 (h : AreTokens ts) (whole : css = lead ++ ts.flatMap StyleToken.text) :
    let raw := (ts.takeWhile (!isSingle Char.toNat endsPreludeCode ·)).flatMap StyleToken.text
    preludeEnd (utf8 css) (utf8 lead).length = .ok ((utf8 lead).length + (utf8 raw).length) := by
  intro raw
  let rest := (ts.dropWhile (!isSingle Char.toNat endsPreludeCode ·)).flatMap StyleToken.text
  obtain ⟨j, ends, -, short, lands⟩ := preludeEnd_lands (utf8 css) (utf8 lead).length
  have behind : (utf8 css).drop j = utf8 rest := by
    rw [lands, drop_utf8 whole, h.inBytes,
      dropWhile_flatMap (takeWhile_not_inBytes (fun _ => lt_of_endsPreludeCode) h.isCut),
      flatMap_text_inBytes]
  have left := congrArg List.length behind
  have size : (utf8 css).length =
      (utf8 lead).length + ((utf8 raw).length + (utf8 rest).length) := by
    rw [split_prelude whole, length_utf8_append, length_utf8_append]
  rw [List.length_drop] at left
  rw [ends]
  exact congrArg Except.ok (by omega)

end

/-! ### The loop -/

section

variable {engine : Engine} {css : List Char} {i next : Nat} {run run' : Run}

theorem scanFrom_of_scanToken (inside : i < (utf8 css).length)
    (h : scanToken engine css i run = .ok (next, run')) (further : i < next) :
    scanFrom engine css i run = scanFrom engine css next run' := by
  rw [scanFrom, if_pos inside, h, ok_bind]
  exact if_pos further

theorem scanFrom_end (h : (utf8 css).drop i = []) : scanFrom engine css i run = .ok run := by
  have beyond : ¬i < (utf8 css).length := Nat.not_lt.mpr (List.drop_eq_nil_iff.mp h)
  rw [scanFrom, if_neg beyond]
  rfl

/-- All positions beyond the end are alike. -/
theorem scanFrom_congr {j : Nat} (h : (utf8 css).drop i = (utf8 css).drop j) :
    scanFrom engine css i run = scanFrom engine css j run := by
  cases left : (utf8 css).drop i with
  | nil => rw [scanFrom_end left, scanFrom_end (h.symm.trans left)]
  | cons b rest =>
    have here := lt_of_drop left
    have there := lt_of_drop (h.symm.trans left)
    have same := congrArg List.length h
    rw [List.length_drop, List.length_drop] at same
    obtain rfl : i = j := by omega
    rfl

/-- Tokens without an `@` are passed one by one. -/
theorem scanFrom_skip (engine : Engine) (run : Run) {us vs : List (StyleToken UInt8)}
    (noAt : ∀ u ∈ us, u.isSingle UInt8.toNat (· = '@'.toNat) = false)
    (h : tokens UInt8.toNat ((utf8 css).drop i) = us ++ vs) :
    ∃ j, scanFrom engine css i run = scanFrom engine css j run ∧
      (utf8 css).drop j = vs.flatMap StyleToken.text := by
  induction us generalizing i with
  | nil => exact ⟨i, rfl, by rw [← List.nil_append vs, ← h, tokens_text]⟩
  | cons u us ih =>
    obtain ⟨notAt, later⟩ := List.forall_mem_cons.mp noAt
    cases place : (utf8 css).drop i with
    | nil =>
      rw [place, tokens] at h
      cases h
    | cons b rest =>
      rw [place, tokens] at h
      obtain ⟨first, others⟩ := List.cons.inj h
      rw [← first, isSingle_cutFirst (fun _ => ne_at_of_opensTokenCode)] at notAt
      obtain ⟨next, ends, further, lands⟩ := tokenEnd_lands place
      have step : scanToken engine css i run = .ok (next, run) := by
        rw [scanToken, byteAt_of_drop place, ok_bind, if_neg (of_decide_eq_false notAt), ends]
        rfl
      rw [scanFrom_of_scanToken (lt_of_drop place) step further]
      exact ih later (lands ▸ others)

variable {front name body text : List Char}

theorem scanToken_at (whole : css = front ++ '@' :: text) :
    scanToken engine css (utf8 front).length run =
      if opensRule front.getLast? then scanRule engine css (utf8 front).length run
      else .ok ((utf8 front).length + 1, run) := by
  have place : (utf8 css).drop (utf8 front).length = 64 :: utf8 text := drop_utf8 whole
  have opens : startsRule (utf8 css) (utf8 front).length = .ok (opensRule front.getLast?) := by
    rw [whole, utf8_append, startsRule_utf8]
  have isAt : UInt8.toNat 64 = '@'.toNat := rfl
  rw [scanToken, byteAt_of_drop place, ok_bind, if_pos isAt, opens, ok_bind]
  rfl

/-- A rule is passed in one step, whatever it is. -/
theorem scanFrom_of_scanRule (whole : css = front ++ '@' :: text)
    (opens : opensRule front.getLast? = true)
    (h : scanRule engine css (utf8 front).length run = .ok (next, run'))
    (further : (utf8 front).length < next) :
    scanFrom engine css (utf8 front).length run = scanFrom engine css next run' := by
  have inside : (utf8 front).length < (utf8 css).length := lt_of_drop (drop_utf8 whole)
  refine scanFrom_of_scanToken inside ?_ further
  rw [scanToken_at whole, if_pos opens, h]

theorem scanRule_name (isName : ∀ c ∈ name, isNameCharacter c = true)
    (notName : ∀ c ∈ body.head?, isNameCharacter c = false)
    (whole : css = front ++ '@' :: name ++ body) :
    scanRule engine css (utf8 front).length run =
      if !isMediaRule name then .ok ((utf8 (front ++ '@' :: name)).length, run)
      else do
        let last ← preludeEnd (utf8 css) (utf8 (front ++ '@' :: name)).length
        return (last, ← rewritePrelude engine css (utf8 front).length
          (utf8 (front ++ '@' :: name)).length last name run) := by
  have start : (utf8 (front ++ ['@'])).length = (utf8 front).length + 1 := length_utf8_append _ _
  have afterAt : css = (front ++ ['@']) ++ (name ++ body) := by simp [whole]
  have last : (utf8 (front ++ ['@'])).length + (utf8 name).length =
      (utf8 (front ++ '@' :: name)).length := by
    rw [← length_utf8_append, List.append_assoc]
    rfl
  have inside : (utf8 (front ++ ['@'])).length ≤ (utf8 css).length := by
    rw [afterAt, length_utf8_append (front ++ ['@'])]
    exact Nat.le_add_right _ _
  have ends := nameEnd_utf8 (drop_utf8 afterAt) inside
  have slice := textBetween_utf8 afterAt
  rw [(takeWhile_append_of_head? isName notName).1, last] at ends
  rw [last] at slice
  rw [scanRule, ← start, ends, ok_bind, slice, ok_bind]
  rfl

end

/-! ### Rules -/

theorem newlines_name {name : List Char} (isName : ∀ c ∈ name, isNameCharacter c = true) :
    newlines ('@' :: name) = 0 := by
  refine newlines_eq_zero (List.not_mem_cons_of_ne_of_not_mem (by decide) fun inName => ?_)
  have newlineIsName := isName _ inName
  revert newlineIsName
  decide

/-- The pieces of a media rule are its name, its prelude and what follows, also if it has none. -/
theorem processPieces_rule (engine : Engine) (line : Nat) {lexing : Lexing}
    (bare : lexing.isBare '@' = true) {before : Option Char} (opens : opensRule before = true)
    {name body raw rest : List Char} (isName : ∀ c ∈ name, isNameCharacter c = true)
    (media : isMediaRule name = true) (notName : ∀ c ∈ body.head?, isNameCharacter c = false)
    (hcut : Lexing.plain.cutPrelude body = (raw, rest)) (other : Option Char) :
    let here := (processPiece engine line (.prelude name raw)).value
    let later := (processPieces engine (line + newlines raw)
      (pieces ⟨.outside, Lexing.plain.run raw, other⟩ rest)).value
    (processPieces engine line (pieces ⟨.outside, lexing, before⟩ ('@' :: (name ++ body)))).value =
      ⟨'@' :: name ++ (here.css ++ later.css), here.changes ++ later.changes⟩ := by
  intro here later
  cases body with
  | nil =>
    obtain ⟨last, start⟩ := pieces_at bare opens isName []
    obtain ⟨rfl, rfl⟩ := Prod.mk.inj hcut
    rw [start, processPieces_verbatim]
    rfl
  | cons c body =>
    rw [pieces_rule bare opens isName media (notName c rfl) hcut other, processPieces_verbatim,
      newlines_name isName, Nat.add_zero, processPieces]
    rfl

section

variable {css front : List Char} {ts : List (StyleToken Char)} {i : Nat}

theorem length_front_lt (front name : List Char) :
    (utf8 front).length < (utf8 (front ++ '@' :: name)).length := by
  rw [length_utf8_append]
  exact Nat.lt_add_of_pos_right (Nat.succ_pos _)

/-- An `@` is a byte that no position but that after its front can have. -/
theorem eq_of_place {text : List Char} (whole : css = front ++ '@' :: text)
    (place : (utf8 css).drop i = utf8 ('@' :: text)) : i = (utf8 front).length := by
  have left := congrArg List.length (place.trans (drop_utf8 whole).symm)
  have here : i < (utf8 css).length := lt_of_drop place
  have there : (utf8 front).length < (utf8 css).length := lt_of_drop (drop_utf8 whole)
  rw [List.length_drop, List.length_drop] at left
  omega

/-- Past an `@` the scan may as well go on from the end of the name after it. -/
theorem scanFrom_name (engine : Engine) (run : Run) {j : Nat} (h : AreTokens ts)
    (place : (utf8 css).drop i = utf8 (ts.flatMap StyleToken.text))
    (behind : (utf8 css).drop j =
      utf8 ((ts.dropWhile (isSingle Char.toNat isNameCode)).flatMap StyleToken.text)) :
    scanFrom engine css i run = scanFrom engine css j run := by
  let inName := isSingle UInt8.toNat isNameCode
  have noAt : ∀ u ∈ (ts.flatMap StyleToken.inBytes).takeWhile inName,
      u.isSingle UInt8.toNat (· = '@'.toNat) = false := by
    intro u hu
    have isName : u.isSingle UInt8.toNat isNameCode = true :=
      List.all_eq_true.mp List.all_takeWhile u hu
    cases u with
    | single b =>
      refine decide_eq_false fun isAt => ?_
      rw [isSingle, isAt] at isName
      revert isName
      decide
    | comment text | quoted text | escape text => rfl
  have split : tokens UInt8.toNat ((utf8 css).drop i) =
      (ts.flatMap StyleToken.inBytes).takeWhile inName ++
        (ts.flatMap StyleToken.inBytes).dropWhile inName := by
    rw [place, h.inBytes, List.takeWhile_append_dropWhile]
  obtain ⟨k, same, lands⟩ := scanFrom_skip engine run noAt split
  rw [same]
  refine scanFrom_congr ?_
  rw [lands, behind, dropWhile_flatMap (takeWhile_inBytes (fun _ => lt_of_isNameCode) h.isCut),
    flatMap_text_inBytes]

/-- Any token that starts no media rule is passed. -/
theorem scanFrom_token (engine : Engine) (run : Run) {t : StyleToken Char}
    (whole : css = front ++ (t :: ts).flatMap StyleToken.text) (h : AreTokens (t :: ts))
    {lexing : Lexing} (follows : lexing.Follows (t :: ts))
    (place : (utf8 css).drop i = utf8 ((t :: ts).flatMap StyleToken.text))
    (noRule : (t.isSingle Char.toNat (· = '@'.toNat) && opensRule front.getLast? &&
      isMediaRule ((ts.takeWhile (isSingle Char.toNat isNameCode)).flatMap StyleToken.text)) =
        false) :
    ∃ j, scanFrom engine css i run = scanFrom engine css j run ∧
      (utf8 css).drop j = utf8 (ts.flatMap StyleToken.text) := by
  by_cases isAt : t.isSingle Char.toNat (· = '@'.toNat) = true
  · obtain rfl := eq_single_at isAt
    obtain rfl := eq_of_place whole place
    have next : (utf8 css).drop ((utf8 front).length + 1) = utf8 (ts.flatMap StyleToken.text) :=
      drop_add place 1
    refine ⟨(utf8 front).length + 1, ?_, next⟩
    by_cases opens : opensRule front.getLast? = true
    · have later : (lexing.next '@').Follows ts := follows.cons.2
      rw [Lexing.next_at (follows.isBare (by decide))] at later
      obtain ⟨parts, isName, notName, -⟩ := later.name h.tail.isCut
      generalize (ts.takeWhile (isSingle Char.toNat isNameCode)).flatMap StyleToken.text = name
        at parts isName noRule
      have other : isMediaRule name = false := by
        rw [isAt, opens] at noRule
        exact noRule
      have sorted : css = front ++ '@' :: name ++
          (ts.dropWhile (isSingle Char.toNat isNameCode)).flatMap StyleToken.text := by
        rw [whole, List.flatMap_cons, parts, List.append_assoc]
        rfl
      have rule : scanRule engine css (utf8 front).length run =
          .ok ((utf8 (front ++ '@' :: name)).length, run) := by
        rw [scanRule_name isName notName sorted, other]
        rfl
      rw [scanFrom_of_scanRule whole opens rule (length_front_lt front name)]
      exact (scanFrom_name engine run h.tail next (drop_utf8 sorted)).symm
    · have inside : (utf8 front).length < (utf8 css).length := lt_of_drop place
      refine scanFrom_of_scanToken inside ?_ (Nat.lt_succ_self _)
      rw [scanToken_at whole, if_neg opens]
  · obtain ⟨u, us, split, same, later, -⟩ :=
      exists_inBytes (fun _ => lt_of_isAt) (h.isCut t List.mem_cons_self)
    have noAt : ∀ x ∈ t.inBytes, x.isSingle UInt8.toNat (· = '@'.toNat) = false := by
      rw [split]
      exact List.forall_mem_cons.mpr ⟨same.trans (eq_false_of_ne_true isAt), later⟩
    have bytes : tokens UInt8.toNat ((utf8 css).drop i) =
        t.inBytes ++ ts.flatMap StyleToken.inBytes := by
      rw [place, h.inBytes, List.flatMap_cons]
    obtain ⟨j, here, lands⟩ := scanFrom_skip engine run noAt bytes
    exact ⟨j, here, by rw [lands, flatMap_text_inBytes]⟩

/-- A media rule is passed with its prelude. -/
theorem scanFrom_media (engine : Engine) {run : Run} {kept : List Char} (hrun : run.IsAt front kept)
    (opens : opensRule front.getLast? = true) {name : List Char}
    (isName : ∀ c ∈ name, isNameCharacter c = true) (media : isMediaRule name = true)
    (h : AreTokens ts)
    (notName : ∀ c ∈ (ts.flatMap StyleToken.text).head?, isNameCharacter c = false)
    (whole : css = front ++ '@' :: name ++ ts.flatMap StyleToken.text) :
    let raw := (ts.takeWhile (!isSingle Char.toNat endsPreludeCode ·)).flatMap StyleToken.text
    let here := (processPiece engine (newlines front + 1) (.prelude name raw)).value
    ∃ run' kept', scanFrom engine css (utf8 front).length run =
        scanFrom engine css (utf8 (front ++ '@' :: name ++ raw)).length run' ∧
      run'.IsAt (front ++ '@' :: name ++ raw) kept' ∧
      run'.out ++ kept' = run.out ++ (kept ++ ('@' :: name ++ here.css)) ∧
      run'.changes = run.changes ++ here.changes := by
  intro raw here
  obtain ⟨run', kept', rewritten, isAt, out, changes⟩ := rewritePrelude_isAt engine hrun name raw
    ((ts.dropWhile (!isSingle Char.toNat endsPreludeCode ·)).flatMap StyleToken.text)
  rw [← split_prelude whole, ← length_utf8_append] at rewritten
  have ends : preludeEnd (utf8 css) (utf8 (front ++ '@' :: name)).length =
      .ok ((utf8 (front ++ '@' :: name)).length + (utf8 raw).length) := preludeEnd_utf8 h whole
  rw [← length_utf8_append] at ends
  have rule : scanRule engine css (utf8 front).length run =
      .ok ((utf8 (front ++ '@' :: name ++ raw)).length, run') := by
    rw [scanRule_name isName notName whole, media, ends, ok_bind, rewritten]
    rfl
  have further : (utf8 front).length < (utf8 (front ++ '@' :: name ++ raw)).length := by
    rw [List.append_assoc]
    exact length_front_lt front (name ++ raw)
  have start : css = front ++ '@' :: (name ++ ts.flatMap StyleToken.text) := by
    rw [whole, List.append_assoc]
    rfl
  exact ⟨run', kept', scanFrom_of_scanRule start opens rule further, isAt, out, changes⟩

end

/-- From a token on, the scan gives the pieces that are left, after what it has kept. -/
theorem scanFrom_rules (engine : Engine) {css front : List Char} {ts : List (StyleToken Char)}
    (whole : css = front ++ ts.flatMap StyleToken.text) (h : AreTokens ts) {lexing : Lexing}
    (follows : lexing.Follows ts) {i : Nat}
    (place : (utf8 css).drop i = utf8 (ts.flatMap StyleToken.text)) {run : Run} {kept : List Char}
    (hrun : run.IsAt front kept) :
    let left := (processPieces engine (newlines front + 1)
      (pieces ⟨.outside, lexing, front.getLast?⟩ (ts.flatMap StyleToken.text))).value
    scanFrom engine css i run >>= finish css =
      .ok ⟨run.out ++ (kept ++ left.css), run.changes ++ left.changes⟩ := by
  -- The induction is that of the media rules among the tokens.
  fun_induction mediaRules Char.toNat front ts generalizing lexing i run kept with
  | case1 front =>
    obtain rfl : css = front := whole.trans (List.append_nil _)
    have copied : textBetween css run.copied (utf8 css).length = .ok kept := by
      simpa [utf8] using textBetween_of_isAt hrun [] []
    rw [scanFrom_end place, ok_bind, finish, copied, ok_bind]
    show Except.ok _ = Except.ok (Processed.mk (run.out ++ (kept ++ [])) (run.changes ++ []))
    rw [List.append_nil, List.append_nil]
  | case2 front t ts name body opens lead raw =>
    rename_i ih
    rw [opensRuleCode_toNat, isMediaName_toNat, Bool.and_eq_true, Bool.and_eq_true] at opens
    obtain ⟨⟨isAt, opens⟩, media⟩ := opens
    obtain rfl := eq_single_at isAt
    obtain rfl := eq_of_place whole place
    have bare := follows.isBare (by decide)
    have later : (lexing.next '@').Follows ts := follows.cons.2
    rw [Lexing.next_at bare] at later
    obtain ⟨parts, isName, notName, followsBody⟩ := later.name h.tail.isCut
    have areBody : AreTokens body := h.tail.dropWhile _
    have lead_eq : lead = front ++ '@' :: name := by simp [lead, StyleToken.text]
    clear_value lead
    subst lead_eq
    have toBody : css = front ++ '@' :: name ++ body.flatMap StyleToken.text := by
      rw [whole, List.flatMap_cons, parts, List.append_assoc]
      rfl
    have toRest := split_prelude toBody
    rw [← List.append_assoc] at toRest
    obtain ⟨run', kept', same, isAt', out, changes⟩ :=
      scanFrom_media engine hrun opens isName media areBody notName toBody
    have rest := ih toRest (areBody.dropWhile _) (followsBody.dropWhile _) (drop_utf8 toRest) isAt'
    have line : newlines (front ++ '@' :: name ++ raw) + 1 = newlines front + 1 + newlines raw := by
      rw [newlines_append, newlines_append, newlines_name isName]
      omega
    have rule := processPieces_rule engine (newlines front + 1) bare opens isName media notName
      (followsBody.cutPrelude areBody.isCut) (front ++ '@' :: name ++ raw).getLast?
    have text : (single '@' :: ts).flatMap StyleToken.text =
        '@' :: (name ++ body.flatMap StyleToken.text) := congrArg ('@' :: ·) parts
    rw [line] at rest
    rw [same, rest, text, rule, changes, ← List.append_assoc run'.out, out]
    simp only [List.append_assoc, List.cons_append]
    rfl
  | case3 front t ts name noRule ih =>
    rw [opensRuleCode_toNat, isMediaName_toNat, Bool.not_eq_true] at noRule
    obtain ⟨j, same, behind⟩ := scanFrom_token engine run whole h follows place noRule
    have rest := ih (by rw [whole, List.flatMap_cons, List.append_assoc]) h.tail follows.cons.2
      behind (hrun.append t.text)
    have line : newlines (front ++ t.text) + 1 = newlines front + 1 + newlines t.text := by
      rw [newlines_append]
      omega
    have sameName : name = (ts.flatMap StyleToken.text).takeWhile isNameCharacter :=
      (takeWhile_isNameCharacter h.tail.isCut).symm
    have passed := pieces_token h.isCut follows (sameName ▸ noRule)
    rw [← List.getLast?_append] at passed
    rw [line] at rest
    rw [same, rest, List.flatMap_cons, passed, processPieces_verbatim]
    simp only [List.append_assoc]

/-- The scan of bytes has a result for every stylesheet: each index is within the bytes, each slice
is between two characters, each line is asked for in order, and each step gets on. The result is that
of the scanner of characters. -/
theorem scan_eq_process (engine : Engine) (css : List Char) :
    scan engine css = .ok (process engine css).value := by
  have start : Run.IsAt {} [] [] := ⟨⟨[], rfl, rfl⟩, [], [], rfl, rfl⟩
  have text := tokens_text Char.toNat css
  have whole : css = [] ++ (tokens Char.toNat css).flatMap StyleToken.text := text.symm
  have place : (utf8 css).drop 0 = utf8 ((tokens Char.toNat css).flatMap StyleToken.text) := by
    rw [text, List.drop_zero]
  have result := scanFrom_rules engine whole (areTokens_tokens css) (Lexing.follows_tokens css) place
    start
  rw [text] at result
  exact result

end MediaRange.ByteScan
