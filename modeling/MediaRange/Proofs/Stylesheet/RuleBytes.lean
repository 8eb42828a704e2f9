import MediaRange.Proofs.Stylesheet.Bytes
import MediaRange.Proofs.Stylesheet.Requests

/-!
# Media rules of bytes

What makes a media rule is in ASCII too. `process_asks` states for the bytes of a stylesheet which
preludes the engine is asked about.
-/

namespace MediaRange

open StyleToken Stylesheet

/-! ### Tokens of one kind -/

namespace StyleToken

section

variable {p : Nat → Bool} (ascii : ∀ n, p n = true → n < 128)

include ascii

theorem eq_of_isAlike {b : UInt8} {c : Char} (h : IsAlike b c) : p b.toNat = p c.toNat := by
  rw [Bool.eq_iff_iff]
  constructor
  · intro hb
    rwa [(h _ (ascii _ hb)).mp rfl]
  · intro hc
    rwa [(h _ (ascii _ hc)).mpr rfl]

theorem isSingle_wide {bs : List UInt8} (h : ∀ b ∈ bs, IsWide b) :
    ∀ u ∈ bs.map single, u.isSingle UInt8.toNat p = false := by
  intro u hu
  obtain ⟨b, hb, rfl⟩ := List.mem_map.mp hu
  rw [← Bool.not_eq_true]
  intro isP
  exact (h b hb).ne (ascii _ isP) rfl

/-- The first token of the bytes is of a kind if the token is, and then it is the only one. The
others are of no kind. -/
theorem exists_inBytes {t : StyleToken Char} (h : t.IsCut Char.toNat) :
    ∃ u us, t.inBytes = u :: us ∧ u.isSingle UInt8.toNat p = t.isSingle Char.toNat p ∧
      (∀ x ∈ us, x.isSingle UInt8.toNat p = false) ∧
      (t.isSingle Char.toNat p = true → us = []) := by
  cases t with
  | comment text | quoted text => exact ⟨_, [], rfl, rfl, List.forall_mem_nil _, fun _ => rfl⟩
  | escape text =>
    obtain ⟨a, rest, rfl, backslash, short⟩ := h
    obtain rfl := Char.toNat_inj.mp backslash
    cases rest with
    | nil => exact ⟨_, [], rfl, rfl, List.forall_mem_nil _, fun _ => rfl⟩
    | cons b rest =>
      obtain rfl : rest = [] := List.eq_nil_of_length_eq_zero (by simpa using short)
      obtain ⟨x, xs, split, -, wide⟩ := exists_utf8EncodeChar b
      exact ⟨_, _, inBytes_escape split, rfl, isSingle_wide ascii wide, fun isP => by cases isP⟩
  | single c =>
    obtain ⟨b, bs, split, alike, wide⟩ := exists_utf8EncodeChar c
    refine ⟨single b, bs.map single, by rw [inBytes, split]; rfl, eq_of_isAlike ascii alike,
      isSingle_wide ascii wide, ?_⟩
    intro isP
    obtain ⟨b', split', -⟩ := utf8EncodeChar_ascii (ascii c.toNat isP)
    rw [split] at split'
    rw [(List.cons.inj split').2, List.map_nil]

variable {ts : List (StyleToken Char)} (cut : ∀ t ∈ ts, t.IsCut Char.toNat)

include cut

theorem takeWhile_inBytes :
    (ts.flatMap inBytes).takeWhile (isSingle UInt8.toNat p) =
      (ts.takeWhile (isSingle Char.toNat p)).flatMap inBytes := by
  refine takeWhile_flatMap ?_ ?_
  · intro t ht isP x hx
    obtain ⟨u, us, split, same, -, alone⟩ := exists_inBytes ascii (cut t ht)
    rw [split, alone isP, List.mem_singleton] at hx
    rw [hx, same, isP]
  · intro t ht notP
    obtain ⟨u, us, split, same, -⟩ := exists_inBytes ascii (cut t ht)
    exact ⟨u, us, split, by rw [same, notP]⟩

theorem takeWhile_not_inBytes :
    (ts.flatMap inBytes).takeWhile (!isSingle UInt8.toNat p ·) =
      (ts.takeWhile (!isSingle Char.toNat p ·)).flatMap inBytes := by
  refine takeWhile_flatMap ?_ ?_
  · intro t ht notP x hx
    obtain ⟨u, us, split, same, later, -⟩ := exists_inBytes ascii (cut t ht)
    rw [split] at hx
    rcases List.mem_cons.mp hx with rfl | hx
    · rw [same]
      exact notP
    · rw [later x hx]
      rfl
  · intro t ht isP
    obtain ⟨u, us, split, same, -⟩ := exists_inBytes ascii (cut t ht)
    exact ⟨u, us, split, by rw [same, isP]⟩

end

theorem flatMap_text_inBytes (ts : List (StyleToken Char)) :
    (ts.flatMap inBytes).flatMap StyleToken.text = utf8 (ts.flatMap StyleToken.text) := by
  induction ts with
  | nil => rfl
  | cons t ts ih =>
    rw [List.flatMap_cons, List.flatMap_append, text_inBytes, ih, List.flatMap_cons, utf8_append]

/-! ### Codes in ASCII -/

theorem lt_of_isAt {n : Nat} (h : decide (n = '@'.toNat) = true) : n < 128 := by
  rw [of_decide_eq_true h]
  decide

theorem lt_of_isNameCode {n : Nat} (h : isNameCode n = true) : n < 128 := by
  simp [isNameCode] at h
  omega

theorem lt_of_mem_codes {cs : List Char} (ascii : cs.all (·.toNat < 128) = true) {n : Nat}
    (h : (cs.map Char.toNat).contains n = true) : n < 128 := by
  obtain ⟨c, hc, rfl⟩ := List.mem_map.mp (List.contains_iff_mem.mp h)
  exact of_decide_eq_true (List.all_eq_true.mp ascii c hc)

theorem lt_of_opensRuleCode {n : Nat} (h : opensRuleCode n = true) : n < 128 :=
  lt_of_mem_codes rfl h

theorem lt_of_endsPreludeCode {n : Nat} (h : endsPreludeCode n = true) : n < 128 :=
  lt_of_mem_codes rfl h

theorem opensRuleCode_utf8 (front : List Char) :
    (utf8 front).getLast?.all (opensRuleCode ∘ UInt8.toNat) =
      front.getLast?.all (opensRuleCode ∘ Char.toNat) := by
  rcases List.eq_nil_or_concat front with rfl | ⟨front, c, rfl⟩
  · rfl
  · obtain ⟨b, last, alike⟩ := getLast_utf8EncodeChar c
    have bytes : utf8 [c] = String.utf8EncodeChar c := List.append_nil _
    rw [List.concat_eq_append, utf8_append, bytes, List.getLast?_append, List.getLast?_concat, last]
    exact eq_of_isAlike (fun _ => lt_of_opensRuleCode) alike

theorem map_toNat_utf8 {name : List Char} (ascii : ∀ c ∈ name, c.toNat < 128) :
    (utf8 name).map UInt8.toNat = name.map Char.toNat := by
  induction name with
  | nil => rfl
  | cons c name ih =>
    obtain ⟨here, later⟩ := List.forall_mem_cons.mp ascii
    obtain ⟨b, split, same⟩ := utf8EncodeChar_ascii here
    rw [utf8_cons split, List.singleton_append, List.map_cons, List.map_cons, same, ih later]

theorem isMediaName_utf8 {name : List Char} (ascii : ∀ c ∈ name, c.toNat < 128) :
    isMediaName UInt8.toNat (utf8 name) = isMediaName Char.toNat name := by
  simp only [isMediaName, ← List.map_map, map_toNat_utf8 ascii]

theorem isMediaName_inBytes {ts : List (StyleToken Char)} (cut : ∀ t ∈ ts, t.IsCut Char.toNat) :
    isMediaName UInt8.toNat
        (((ts.flatMap inBytes).takeWhile (isSingle UInt8.toNat isNameCode)).flatMap text) =
      isMediaName Char.toNat ((ts.takeWhile (isSingle Char.toNat isNameCode)).flatMap text) := by
  rw [takeWhile_inBytes (fun _ => lt_of_isNameCode) cut, flatMap_text_inBytes]
  refine isMediaName_utf8 ?_
  rw [← takeWhile_isNameCharacter cut]
  intro c hc
  have isName := List.all_eq_true.mp List.all_takeWhile c hc
  rw [← isNameCode_toNat] at isName
  exact lt_of_isNameCode isName

end StyleToken

/-! ### Rules -/

/-- Where no token is an `@`, there is no rule. -/
theorem mediaRules_append {α : Type} {code : α → Nat} {us : List (StyleToken α)}
    (h : ∀ u ∈ us, u.isSingle code (· = '@'.toNat) = false) (front : List α)
    (ts : List (StyleToken α)) :
    mediaRules code front (us ++ ts) = mediaRules code (front ++ us.flatMap text) ts := by
  induction us generalizing front with
  | nil => simp
  | cons u us ih =>
    obtain ⟨notAt, later⟩ := List.forall_mem_cons.mp h
    rw [List.cons_append, mediaRules]
    dsimp only
    rw [notAt, Bool.false_and, Bool.false_and, if_neg Bool.false_ne_true, ih later,
      List.flatMap_cons, List.append_assoc]

def MediaRule.inBytes (r : MediaRule Char) : MediaRule UInt8 :=
  ⟨utf8 r.lead, utf8 r.name, utf8 r.prelude⟩

theorem mediaRules_inBytes (front : List Char) {ts : List (StyleToken Char)}
    (cut : ∀ t ∈ ts, t.IsCut Char.toNat) :
    mediaRules UInt8.toNat (utf8 front) (ts.flatMap inBytes) =
      (mediaRules Char.toNat front ts).map MediaRule.inBytes := by
  fun_induction mediaRules Char.toNat front ts with
  | case1 =>
    rw [List.flatMap_nil, mediaRules]
    rfl
  | case2 front t ts name body opens lead raw =>
    rename_i ih
    obtain ⟨cutFirst, cutLater⟩ := List.forall_mem_cons.mp cut
    have cutBody : ∀ t ∈ body, t.IsCut Char.toNat :=
      fun t ht => cutLater t (List.dropWhile_subset _ ht)
    have cutRest : ∀ t ∈ body.dropWhile (!isSingle Char.toNat endsPreludeCode ·),
        t.IsCut Char.toNat := fun t ht => cutBody t (List.dropWhile_subset _ ht)
    obtain ⟨u, us, split, same, -, alone⟩ := exists_inBytes (fun _ => lt_of_isAt) cutFirst
    have isAt : t.isSingle Char.toNat (· = '@'.toNat) = true := by
      rw [Bool.and_eq_true, Bool.and_eq_true] at opens
      exact opens.1.1
    obtain rfl := alone isAt
    have textOf : u.text = utf8 t.text := by
      rw [← text_inBytes, split, List.flatMap_singleton]
    have nameOf : ((ts.flatMap inBytes).takeWhile (isSingle UInt8.toNat isNameCode)).flatMap text =
        utf8 name := by
      rw [takeWhile_inBytes (fun _ => lt_of_isNameCode) cutLater, flatMap_text_inBytes]
    have bodyOf : (ts.flatMap inBytes).dropWhile (isSingle UInt8.toNat isNameCode) =
        body.flatMap inBytes :=
      dropWhile_flatMap (takeWhile_inBytes (fun _ => lt_of_isNameCode) cutLater)
    have rawOf := takeWhile_not_inBytes (fun _ => lt_of_endsPreludeCode) cutBody
    rw [← isMediaName_inBytes cutLater, ← opensRuleCode_utf8, ← same] at opens
    rw [List.flatMap_cons, split, List.singleton_append, mediaRules]
    dsimp only
    rw [if_pos opens, nameOf, bodyOf, dropWhile_flatMap rawOf, rawOf, flatMap_text_inBytes, textOf,
      ← utf8_append, ← utf8_append, ← utf8_append, ih cutRest]
    rfl
  | case3 front t ts name noRule ih =>
    obtain ⟨cutFirst, cutLater⟩ := List.forall_mem_cons.mp cut
    obtain ⟨u, us, split, same, later, alone⟩ := exists_inBytes (fun _ => lt_of_isAt) cutFirst
    have textOf : (u :: us).flatMap text = utf8 t.text := by rw [← split, text_inBytes]
    by_cases isAt : t.isSingle Char.toNat (· = '@'.toNat) = true
    · obtain rfl := alone isAt
      have onlyText : u.text = utf8 t.text := by rwa [List.flatMap_singleton] at textOf
      rw [List.flatMap_cons, split, List.singleton_append, mediaRules]
      dsimp only
      rw [same, opensRuleCode_utf8, isMediaName_inBytes cutLater, if_neg noRule, onlyText,
        ← utf8_append, ih cutLater]
    · have noAt : ∀ x ∈ u :: us, x.isSingle UInt8.toNat (· = '@'.toNat) = false :=
        List.forall_mem_cons.mpr ⟨same.trans (eq_false_of_ne_true isAt), later⟩
      rw [List.flatMap_cons, split, mediaRules_append noAt, textOf, ← utf8_append, ih cutLater]

/-- The engine is asked about the preludes that are not blank of the media rules among the tokens,
in their order, and about nothing else. These rules may be found in the bytes of the stylesheet. -/
theorem process_asks (engine : Engine) (css : List Char) :
    let rules := mediaRules Char.toNat [] (tokens Char.toNat css)
    let asked := rules.filterMap MediaRule.request?
    rules.map MediaRule.inBytes = mediaRules UInt8.toNat [] (tokens UInt8.toNat (utf8 css)) ∧
      (process engine css).log = asked.flatMap (engine.rewriteRule · |>.log) ∧
      (process engine css).value.changes = rules.filterMap (MediaRule.change? engine) ∧
      ∀ other : Engine, (∀ rule ∈ asked, other.rewriteRule rule = engine.rewriteRule rule) →
        process other css = process engine css := by
  refine ⟨?_, log_process engine css, changes_process engine css, fun other => process_congr⟩
  rw [tokens_utf8]
  exact (mediaRules_inBytes [] (isCut_tokens Char.toNat css)).symm

end MediaRange
