import MediaRange.Proofs.Stylesheet.Tokens

/-!
# Media rules among the tokens

`mediaRules` finds the media rules of a stylesheet in its tokens. As the tokens, it reads characters
or bytes by their codes; the codes of characters say what the scanner asks of them.
-/

namespace MediaRange

open Scanner StyleToken

/-- Pieces that are accepted in full or rejected at once are accepted as their elements are. -/
theorem takeWhile_flatMap {α β : Type} {p : α → Bool} {q : β → Bool} {f : α → List β}
    {l : List α} (whole : ∀ a ∈ l, p a = true → ∀ b ∈ f a, q b = true)
    (first : ∀ a ∈ l, p a = false → ∃ b bs, f a = b :: bs ∧ q b = false) :
    (l.flatMap f).takeWhile q = (l.takeWhile p).flatMap f := by
  induction l with
  | nil => rfl
  | cons a l ih =>
    obtain ⟨whole, wholeLater⟩ := List.forall_mem_cons.mp whole
    obtain ⟨first, firstLater⟩ := List.forall_mem_cons.mp first
    rw [List.flatMap_cons]
    by_cases ha : p a = true
    · rw [List.takeWhile_append_of_pos (whole ha), ih wholeLater firstLater,
        List.takeWhile_cons_of_pos ha, List.flatMap_cons]
    · obtain ⟨b, bs, split, hb⟩ := first (eq_false_of_ne_true ha)
      rw [split, List.cons_append, List.takeWhile_cons_of_neg (by simp [hb]),
        List.takeWhile_cons_of_neg ha]
      rfl

theorem dropWhile_flatMap {α β : Type} {p : α → Bool} {q : β → Bool} {f : α → List β} {l : List α}
    (h : (l.flatMap f).takeWhile q = (l.takeWhile p).flatMap f) :
    (l.flatMap f).dropWhile q = (l.dropWhile p).flatMap f := by
  rw [← List.append_right_inj ((l.takeWhile p).flatMap f), ← List.flatMap_append,
    List.takeWhile_append_dropWhile, ← h, List.takeWhile_append_dropWhile]

/-- A media rule: the text up to the end of its name, its name and its prelude. -/
structure MediaRule (α : Type) where
  lead : List α
  name : List α
  prelude : List α
  deriving DecidableEq

/-! ### Rules by tokens -/

namespace StyleToken

def isNameCode (n : Nat) : Bool :=
  'a'.toNat ≤ n && n ≤ 'z'.toNat || 'A'.toNat ≤ n && n ≤ 'Z'.toNat || '0'.toNat ≤ n && n ≤ '9'.toNat ||
    n = '-'.toNat || n = '_'.toNat

def opensRuleCode (n : Nat) : Bool :=
  ([' ', '\t', '\n', '\x0c', '\r', '{', '}', ';', '/'].map Char.toNat).contains n

def endsPreludeCode (n : Nat) : Bool := (['{', ';', '}'].map Char.toNat).contains n

def lowerCode (n : Nat) : Nat := if 'A'.toNat ≤ n ∧ n ≤ 'Z'.toNat then n + 32 else n

variable {α : Type} (code : α → Nat)

/-- Whether a token is a single unit with a code of some kind. -/
def isSingle (p : Nat → Bool) : StyleToken α → Bool
  | single a => p (code a)
  | _ => false

def isMediaName (name : List α) : Bool :=
  mediaRuleNames.any fun n => name.map (lowerCode ∘ code) = n.toList.map Char.toNat

theorem length_dropWhile_dropWhile_le (p q : StyleToken α → Bool) (ts : List (StyleToken α)) :
    ((ts.dropWhile p).dropWhile q).length ≤ ts.length :=
  ((List.dropWhile_suffix q).trans (List.dropWhile_suffix p)).length_le

/-- The media rules of a stylesheet after its front. A prelude holds no other rule. -/
def mediaRules (front : List α) : List (StyleToken α) → List (MediaRule α)
  | [] => []
  | t :: ts =>
    let name := (ts.takeWhile (isSingle code isNameCode)).flatMap text
    let body := ts.dropWhile (isSingle code isNameCode)
    if t.isSingle code (· = '@'.toNat) && front.getLast?.all (opensRuleCode ∘ code) &&
        isMediaName code name then
      let lead := front ++ t.text ++ name
      let raw := (body.takeWhile (!isSingle code endsPreludeCode ·)).flatMap text
      ⟨lead, name, raw⟩ ::
        mediaRules (lead ++ raw) (body.dropWhile (!isSingle code endsPreludeCode ·))
    else mediaRules (front ++ t.text) ts
termination_by ts => ts.length
decreasing_by
  · exact Nat.lt_succ_of_le (length_dropWhile_dropWhile_le _ _ ts)
  · exact Nat.lt_succ_self _

/-- Tokens of several units start with one of these. -/
def opensTokenCode (n : Nat) : Bool := (['/', '"', '\'', '\\'].map Char.toNat).contains n

def IsCut : StyleToken α → Prop
  | comment text | quoted text => ∃ a rest, text = a :: rest ∧ opensTokenCode (code a)
  | escape text => ∃ a rest, text = a :: rest ∧ code a = '\\'.toNat ∧ rest.length ≤ 1
  | single _ => True

theorem isCut_cutFirst (a : α) (rest : List α) : (cutFirst code a rest).1.IsCut code := by
  unfold cutFirst
  split
  · rename_i opens
    exact ⟨a, _, rfl, by simp [opensTokenCode, opens.1]⟩
  · split
    · rename_i isQuote
      refine ⟨a, _, rfl, ?_⟩
      rcases isQuote with double | apostrophe
      · simp [opensTokenCode, double]
      · simp [opensTokenCode, apostrophe]
    · split
      · rename_i backslash
        exact ⟨a, _, rfl, backslash, List.length_take_le 1 rest⟩
      · trivial

theorem isCut_tokens (text : List α) : ∀ t ∈ tokens code text, t.IsCut code := by
  fun_induction tokens code text with
  | case1 => exact List.forall_mem_nil _
  | case2 a rest ih => exact List.forall_mem_cons.mpr ⟨isCut_cutFirst code a rest, ih⟩

variable {code}

/-- Only a single unit starts with a code that starts no longer token. -/
theorem exists_text {t : StyleToken α} (h : t.IsCut code) {p : Nat → Bool}
    (single : ∀ n, opensTokenCode n = true → p n = false) :
    ∃ a rest, t.text = a :: rest ∧ p (code a) = t.isSingle code p := by
  cases t with
  | single a => exact ⟨a, [], rfl, rfl⟩
  | comment text | quoted text =>
    obtain ⟨a, rest, rfl, opens⟩ := h
    exact ⟨a, rest, rfl, single _ opens⟩
  | escape text =>
    obtain ⟨a, rest, rfl, backslash, -⟩ := h
    exact ⟨a, rest, rfl, single _ (by rw [backslash]; decide)⟩

theorem forall_mem_marks {t : StyleToken α} (h : t.IsCut code) {p : Nat → Bool}
    (single : ∀ n, opensTokenCode n = true → p n = false) (notSingle : t.isSingle code p = false) :
    ∀ m ∈ t.marks, m.2 = true → p (code m.1) = false := by
  obtain ⟨a, rest, htext, same⟩ := exists_text h single
  intro m hm first
  rw [marks, htext] at hm
  rcases List.mem_cons.mp hm with rfl | later
  · exact same.trans notSingle
  · obtain ⟨b, -, rfl⟩ := List.mem_map.mp later
    cases first

theorem eq_of_opensTokenCode {n : Nat} (h : opensTokenCode n = true) :
    n = 47 ∨ n = 34 ∨ n = 39 ∨ n = 92 := by
  simpa [opensTokenCode] using h

theorem ne_at_of_opensTokenCode {n : Nat} (h : opensTokenCode n = true) :
    decide (n = '@'.toNat) = false := by
  rcases eq_of_opensTokenCode h with rfl | rfl | rfl | rfl <;> decide

theorem not_endsPreludeCode_of_opensTokenCode {n : Nat} (h : opensTokenCode n = true) :
    endsPreludeCode n = false := by
  rcases eq_of_opensTokenCode h with rfl | rfl | rfl | rfl <;> decide

theorem not_isNameCode_of_opensTokenCode {n : Nat} (h : opensTokenCode n = true) :
    isNameCode n = false := by
  rcases eq_of_opensTokenCode h with rfl | rfl | rfl | rfl <;> decide

end StyleToken

/-! ### Codes of characters -/

theorem contains_toNat (cs : List Char) (c : Char) :
    (cs.map Char.toNat).contains c.toNat = cs.contains c := by
  simp [List.contains_eq_mem, Char.toNat_inj]

theorem isNameCode_toNat (c : Char) : isNameCode c.toNat = isNameCharacter c := by
  have alphanum : c.isAlphanum = (decide ('A'.toNat ≤ c.toNat ∧ c.toNat ≤ 'Z'.toNat) ||
      (decide ('a'.toNat ≤ c.toNat) && decide (c.toNat ≤ 'z'.toNat)) ||
        (decide ('0'.toNat ≤ c.toNat) && decide (c.toNat ≤ '9'.toNat))) := rfl
  rw [isNameCharacter, alphanum, isNameCode, Bool.eq_iff_iff]
  simp only [Bool.or_eq_true, Bool.and_eq_true, decide_eq_true_eq, ← Char.toNat_inj]
  omega

theorem opensRuleCode_toNat (before : Option Char) :
    before.all (opensRuleCode ∘ Char.toNat) = opensRule before := by
  cases before with
  | none => rfl
  | some c => exact contains_toNat _ c

theorem endsPreludeCode_toNat (c : Char) : endsPreludeCode c.toNat = endsPrelude c := by
  rw [endsPreludeCode, contains_toNat]
  simp [endsPrelude, Bool.or_assoc]

theorem toNat_toLower (c : Char) : c.toLower.toNat = lowerCode c.toNat := by
  unfold Char.toLower lowerCode
  have range : c.val ≥ 'A'.val ∧ c.val ≤ 'Z'.val ↔ 'A'.toNat ≤ c.toNat ∧ c.toNat ≤ 'Z'.toNat :=
    Iff.rfl
  by_cases upper : c.val ≥ 'A'.val ∧ c.val ≤ 'Z'.val
  · rw [dif_pos upper, if_pos (range.mp upper)]
    show (c.val + ('a'.val - 'A'.val)).toNat = c.val.toNat + 32
    have last : c.val.toNat ≤ 90 := (range.mp upper).2
    have distance : ('a'.val - 'A'.val).toNat = 32 := by decide
    rw [UInt32.toNat_add]
    omega
  · rw [dif_neg upper, if_neg (mt range.mpr upper)]

theorem isMediaName_toNat (name : List Char) : isMediaName Char.toNat name = isMediaRule name := by
  have lower : Char.toNat ∘ Char.toLower = lowerCode ∘ Char.toNat := funext toNat_toLower
  have same (n : String) : name.map (lowerCode ∘ Char.toNat) = n.toList.map Char.toNat ↔
      name.map Char.toLower = n.toList := by
    rw [← lower, ← List.map_map]
    exact List.map_inj_right fun _ _ => Char.toNat_inj.mp
  simp only [isMediaName, isMediaRule, same]

end MediaRange
